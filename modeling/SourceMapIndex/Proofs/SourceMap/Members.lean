import SourceMapIndex.Proofs.Json.Numerals
import SourceMapIndex.Proofs.Json.Strings
import SourceMapIndex.SourceMap.Basic

/-!
# The members of a source map in a text

Five members of an object make a source map; what other members it has does not matter. This
file says, without reading, which texts have some members, in any spelling, and which source map
has their values: every field has the value of its member, or a default if there is none.

## Main definitions

- `SourceMap.Field` — the members that count
- `SourceMap.Member` — a member of an object, with the value that it is read as
- `Member.WritesValue`, `Member.Writes` — the texts of a member
- `SourceMap.WritesObject`, `SourceMap.WritesArray` — the texts of some members together
- `SourceMap.HasMembers` — a source map has the values of some members, and defaults otherwise
- `SourceMap.SameKnown` — the same members count, apart from some that have their defaults

## Main results

- `SourceMap.hasMembers_foldl_put` — members of different fields can be put in one by one
- `SameKnown.foldl_put_eq` — whatever makes no difference
-/

namespace SourceMapIndex

namespace SourceMap

open Json (IsValue WritesString WritesStrings JoinsMember Enclosed IsTextOf)

/-- The members of a source map that are read. -/
inductive Field where
  | version
  | file
  | mappings
  | sources
  | names
deriving DecidableEq

namespace Field

/-- All fields, in the order in which an array has their values. -/
def all : List Field :=
  [.version, .file, .mappings, .sources, .names]

def key : Field → String
  | .version => "version"
  | .file => "file"
  | .mappings => "mappings"
  | .sources => "sources"
  | .names => "names"

theorem key_injective : Function.Injective key := by
  intro field other
  cases field <;> cases other <;> simp [key]

end Field

/-- A member of an object: one of the five fields with its value, or a member with another key,
whose value does not matter. -/
inductive Member where
  | version (value : Option UInt32)
  | file (value : Option String)
  | mappings (value : String)
  | sources (values : List String)
  | names (values : List String)
  | other (key : String) (unknown : ∀ field : Field, field.key ≠ key)

/-- The member that counts if a field is missing. -/
def Field.default : Field → Member
  | .version => .version none
  | .file => .file none
  | .mappings => .mappings ""
  | .sources => .sources []
  | .names => .names []

namespace Member

def field? : Member → Option Field
  | .version _ => some .version
  | .file _ => some .file
  | .mappings _ => some .mappings
  | .sources _ => some .sources
  | .names _ => some .names
  | .other .. => none

def key : Member → String
  | .version _ => Field.version.key
  | .file _ => Field.file.key
  | .mappings _ => Field.mappings.key
  | .sources _ => Field.sources.key
  | .names _ => Field.names.key
  | .other key _ => key

/-- The texts of a member's value. A version is written by its decimal digits; the value of a
member that does not count may be any. -/
def WritesValue : Member → List Char → Prop
  | .version none, text | .file none, text => text = "null".toList
  | .version (some word), text => text = (toString word.toNat).toList
  | .file (some value), text | .mappings value, text => WritesString value text
  | .sources values, text | .names values, text => WritesStrings values text
  | .other .., text => IsValue text

/-- The texts of a member with its key, in any spelling and with any blanks. -/
def Writes (member : Member) (text : List Char) : Prop :=
  ∃ key value, WritesString member.key key ∧ member.WritesValue value ∧
    JoinsMember (key, value) text

end Member

/-- The texts of an object with some members, in their order. -/
def WritesObject (members : List Member) (text : String) : Prop :=
  ∃ texts part, List.Forall₂ Member.Writes members texts ∧ Enclosed '\x7b' '\x7d' texts part ∧
    IsTextOf part text

/-- The texts of an array with the values of some members, in their order. -/
def WritesArray (members : List Member) (text : String) : Prop :=
  ∃ texts part, List.Forall₂ Member.WritesValue members texts ∧ Enclosed '[' ']' texts part ∧
    IsTextOf part text

/-- No field occurs twice among some members. -/
def DistinctFields (members : List Member) : Prop :=
  (members.filterMap Member.field?).Nodup

/-- The members that count. -/
def known (members : List Member) : List Member :=
  members.filter fun member => member.field?.isSome

/-- The member of a field among some members, or its default. -/
def memberOf (members : List Member) (field : Field) : Member :=
  (members.find? fun member => member.field? = some field).getD field.default

/-- The member that a field of a source map makes. -/
def member (map : SourceMap) : Field → Member
  | .version => .version map.version
  | .file => .file map.file
  | .mappings => .mappings map.mappings
  | .sources => .sources map.sources.toList
  | .names => .names map.names.toList

/-- A source map has the values of some members, and defaults for the fields among them that are
missing. -/
def HasMembers (map : SourceMap) (members : List Member) : Prop :=
  ∀ field, map.member field = memberOf members field

/-- The members that count are the same in any order, apart from defaults for some of the fields
that are missing. Members that do not count may be any. -/
structure SameKnown (members others : List Member) (missing : List Field) : Prop where
  nodup : missing.Nodup
  absent : ∀ field ∈ missing, ∀ member ∈ members, member.field? ≠ some field
  perm : (known others).Perm (known members ++ missing.map Field.default)

/-! ### Fields and members -/

theorem member_empty (field : Field) : member {} field = field.default := by
  cases field <;> rfl

theorem ext_member {map other : SourceMap} (h : ∀ field, map.member field = other.member field) :
    map = other := by
  obtain ⟨version, file, mappings, sources, names⟩ := map
  have hversion := h .version
  have hfile := h .file
  have hmappings := h .mappings
  have hsources := h .sources
  have hnames := h .names
  simp only [member, Member.version.injEq, Member.file.injEq, Member.mappings.injEq,
    Member.sources.injEq, Member.names.injEq, Array.toList_inj] at *
  subst hversion hfile hmappings hsources hnames
  rfl

theorem HasMembers.unique {map other : SourceMap} {members others : List Member}
    (h : map.HasMembers members) (hother : other.HasMembers others)
    (hsame : ∀ field, memberOf members field = memberOf others field) : map = other :=
  ext_member fun field => (h field).trans ((hsame field).trans (hother field).symm)

theorem Field.field?_default (field : Field) : field.default.field? = some field := by
  cases field <;> rfl

theorem Member.key_of_field? {member : Member} {field : Field} (h : member.field? = some field) :
    member.key = field.key := by
  cases member <;> cases h <;> rfl

theorem Member.ne_key_of_field?_eq_none {member : Member} (h : member.field? = none)
    (field : Field) : field.key ≠ member.key := by
  cases member with
  | other key unknown => exact unknown field
  | _ => cases h

/-- A source map with the value of one more member. -/
def put (map : SourceMap) : Member → SourceMap
  | .version version => { map with version }
  | .file file => { map with file }
  | .mappings mappings => { map with mappings }
  | .sources values => { map with sources := values.toArray }
  | .names values => { map with names := values.toArray }
  | .other .. => map

theorem member_put (map : SourceMap) (entry : Member) (field : Field) :
    (map.put entry).member field =
      if entry.field? = some field then entry else map.member field := by
  cases entry <;> cases field <;> simp [put, member, Member.field?]

namespace DistinctFields

variable {first : Member} {rest : List Member} (h : DistinctFields (first :: rest))

include h

theorem tail : DistinctFields rest := by
  unfold DistinctFields at h ⊢
  rw [List.filterMap_cons] at h
  split at h
  · exact h
  · exact h.of_cons

theorem field?_ne {field : Field} (hfirst : first.field? = some field) :
    ∀ later ∈ rest, later.field? ≠ some field := by
  unfold DistinctFields at h
  rw [List.filterMap_cons_some hfirst, List.nodup_cons] at h
  exact fun later hlater hfield => h.1 (List.mem_filterMap.mpr ⟨later, hlater, hfield⟩)

end DistinctFields

/-- Members of different fields are put in beside each other. -/
theorem member_foldl_put {members : List Member} (hfields : DistinctFields members)
    (map : SourceMap) (field : Field) :
    (members.foldl put map).member field =
      (members.find? fun member => member.field? = some field).getD (map.member field) := by
  induction members generalizing map with
  | nil => rfl
  | cons entry rest ih =>
    rw [List.foldl_cons, ih hfields.tail, member_put]
    by_cases hentry : entry.field? = some field
    · have hnone : (rest.find? fun member => member.field? = some field) = none := by
        rw [List.find?_eq_none]
        simpa using hfields.field?_ne hentry
      simp [hentry, hnone]
    · simp [hentry]

theorem hasMembers_foldl_put {members : List Member} (hfields : DistinctFields members) :
    (members.foldl put {}).HasMembers members := by
  intro field
  rw [member_foldl_put hfields, member_empty, memberOf]

/-! ### Members that count for the same -/

section Known

variable {members others : List Member}

theorem filterMap_known (members : List Member) :
    (known members).filterMap Member.field? = members.filterMap Member.field? := by
  rw [known, List.filterMap_filter]
  congr 1
  funext member
  cases member.field? <;> simp

theorem memberOf_of_mem (hfields : DistinctFields members) {entry : Member}
    (hentry : entry ∈ members) {field : Field} (hfield : entry.field? = some field) :
    memberOf members field = entry := by
  -- the first member of the field is the only one
  unfold memberOf
  induction members with
  | nil => cases hentry
  | cons first rest ih =>
    by_cases hfirst : first.field? = some field
    · rw [List.find?_cons_of_pos (by simpa using hfirst), Option.getD_some]
      rcases List.mem_cons.mp hentry with rfl | hrest
      · rfl
      · exact absurd hfield (hfields.field?_ne hfirst entry hrest)
    · rw [List.find?_cons_of_neg (by simpa using hfirst)]
      rcases List.mem_cons.mp hentry with rfl | hrest
      · exact absurd hfield hfirst
      · exact ih hfields.tail hrest

theorem memberOf_eq_default {field : Field}
    (h : ∀ member ∈ members, member.field? ≠ some field) :
    memberOf members field = field.default := by
  have hnone : (members.find? fun member => member.field? = some field) = none := by
    rw [List.find?_eq_none]
    simpa using h
  rw [memberOf, hnone, Option.getD_none]

variable {missing : List Field} (h : SameKnown members others missing)

include h

theorem SameKnown.distinctFields (hfields : DistinctFields members) : DistinctFields others := by
  have hdefaults : (missing.map Field.default).filterMap Member.field? = missing := by
    rw [List.filterMap_map]
    exact (List.filterMap_congr fun field _ => field.field?_default).trans List.filterMap_some
  have hall := h.perm.filterMap Member.field?
  rw [List.filterMap_append, filterMap_known, filterMap_known, hdefaults] at hall
  refine hall.nodup_iff.mpr (List.nodup_append.mpr ⟨hfields, h.nodup, ?_⟩)
  rintro field hfield _ hmem rfl
  obtain ⟨member, hmember, hsome⟩ := List.mem_filterMap.mp hfield
  exact h.absent field hmem member hmember hsome

/-- Members that do not count make no difference, and neither do defaults in place of missing
members. -/
theorem SameKnown.memberOf_eq (hfields : DistinctFields members) (field : Field) :
    memberOf others field = memberOf members field := by
  have hothers := h.distinctFields hfields
  have hmem : ∀ entry : Member, entry.field? = some field →
      (entry ∈ others ↔ entry ∈ members ∨ field ∈ missing ∧ entry = field.default) := by
    intro entry hentry
    have hknown : ∀ list : List Member, entry ∈ known list ↔ entry ∈ list := by
      intro list
      simp [known, hentry]
    rw [← hknown others, h.perm.mem_iff, List.mem_append, hknown members, List.mem_map]
    apply or_congr_right
    constructor
    · rintro ⟨other, hother, rfl⟩
      obtain rfl : other = field := Option.some.inj (other.field?_default.symm.trans hentry)
      exact ⟨hother, rfl⟩
    · rintro ⟨hfield, rfl⟩
      exact ⟨field, hfield, rfl⟩
  by_cases hfound : ∃ entry ∈ others, entry.field? = some field
  · obtain ⟨entry, hentry, hfield⟩ := hfound
    rw [memberOf_of_mem hothers hentry hfield]
    rcases (hmem entry hfield).mp hentry with hold | ⟨habsent, rfl⟩
    · exact (memberOf_of_mem hfields hold hfield).symm
    · exact (memberOf_eq_default (h.absent field habsent)).symm
  · push Not at hfound
    rw [memberOf_eq_default hfound]
    refine (memberOf_eq_default fun entry hentry hfield => ?_).symm
    exact hfound entry ((hmem entry hfield).mpr (Or.inl hentry)) hfield

theorem SameKnown.foldl_put_eq (hfields : DistinctFields members) :
    others.foldl put {} = members.foldl put {} :=
  (hasMembers_foldl_put (h.distinctFields hfields)).unique (hasMembers_foldl_put hfields)
    (h.memberOf_eq hfields)

end Known

end SourceMap

end SourceMapIndex
