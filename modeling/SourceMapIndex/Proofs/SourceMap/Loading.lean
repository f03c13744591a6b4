import SourceMapIndex.Proofs.Json.RoundTrip
import SourceMapIndex.Proofs.Json.Values
import SourceMapIndex.Proofs.SourceMap.Members

/-!
# Reading the members of a source map

A source map is read from an object or from an array. Of an object only the members with the
five known keys count: it makes no difference in what order they come, how they are spelled, or
which other members stand among them, whatever is in these. A member that is missing counts as
its default. An array has the values of the first members, in the order of the fields.

## Main definitions

- `Field.slot` — the slot of a field
- `Member.Stored`, `Member.Takes` — a draft is stored as the value of a member, or passed over

## Main results

- `Member.exists_stored` — the text of a value is stored as the value, or passed over
- `SourceMap.readMembers_eq`, `SourceMap.readItems_eq` — members and items are put in one by one
- `SourceMap.readText_eq_of_members` — what a text is read as, and which texts are read alike
-/

namespace SourceMapIndex

namespace SourceMap

open Json (Draft Fault Slot Flaw IsValue WritesString WritesStrings ReadsAs ReadsAsMember)

/-! ### Slots -/

/-- The slot of a field. -/
def Field.slot : Field → Slot SourceMap
  | .version => slots.get ⟨0, by decide⟩
  | .file => slots.get ⟨1, by decide⟩
  | .mappings => slots.get ⟨2, by decide⟩
  | .sources => slots.get ⟨3, by decide⟩
  | .names => slots.get ⟨4, by decide⟩

theorem slots_eq : slots = Field.all.map Field.slot :=
  rfl

theorem Field.key_slot (field : Field) : field.slot.key = field.key := by
  cases field <;> rfl

theorem Field.required_slot (field : Field) : field.slot.required = false := by
  cases field <;> rfl

theorem find?_slots_key (field : Field) :
    slots.find? (·.key == field.key) = some field.slot := by
  cases field <;> rfl

theorem find?_slots_of_unknown {key : String} (h : ∀ field : Field, field.key ≠ key) :
    slots.find? (·.key == key) = none := by
  rw [List.find?_eq_none]
  intro slot hslot
  rw [slots_eq, List.mem_map] at hslot
  obtain ⟨field, -, rfl⟩ := hslot
  simpa [field.key_slot] using h field

/-- A draft is stored as the value of a member that counts, or passed over. -/
def Member.Stored (member : Member) (draft : Draft) : Prop :=
  match member.field? with
  | some field => ∀ map, field.slot.store map draft = .ok (map.put member)
  | none => draft.skip = .ok ()

section Store

variable (map : SourceMap) (draft : Draft)

theorem store_version :
    Field.version.slot.store map draft =
      (draft.asOptional Draft.asWord).map fun version => { map with version } :=
  rfl

theorem store_sources :
    Field.sources.slot.store map draft =
      (draft.asList Draft.asString).map fun sources =>
        { map with sources := sources.toArray } :=
  rfl

theorem store_names :
    Field.names.slot.store map draft =
      (draft.asList Draft.asString).map fun names => { map with names := names.toArray } :=
  rfl

end Store

/-- A word is read back from its decimal digits. -/
theorem readsAs_toString (word : UInt32) :
    ReadsAs (toString word.toNat).toList (.number (.int word.toNat)) := by
  have htext : (Json.Number.int (Int.ofNat word.toNat)).text = toString word.toNat := rfl
  have hexact : (Json.Number.int (Int.ofNat word.toNat)).IsExact := by
    have hlt := word.toNat_lt
    simp only [Json.Number.IsExact, Int.ofNat_eq_natCast]
    omega
  rw [← htext]
  exact .of_leaf fun rest hrest => Json.Token.next?_number hrest hexact

theorem asOptional_asWord (word : UInt32) :
    (Draft.number (.int word.toNat)).asOptional Draft.asWord = .ok (some word) := by
  have hword : Word.ofInt? word.toNat = some word := Word.ofInt?_eq_some_iff.mpr rfl
  rw [Draft.asOptional, Draft.asWord, hword]
  · rfl
  · nofun

/-- The text of a member's value is stored as this value, or passed over. -/
theorem Member.exists_stored {member : Member} {text : List Char} (h : member.WritesValue text) :
    ∃ draft, ReadsAs text draft ∧ member.Stored draft := by
  cases member with
  | version value =>
    cases value with
    | none =>
      obtain rfl : text = "null".toList := h
      exact ⟨.null, .of_leaf fun _ _ => rfl, fun _ => rfl⟩
    | some word =>
      obtain rfl : text = (toString word.toNat).toList := h
      refine ⟨_, readsAs_toString word, fun map => ?_⟩
      rw [store_version, asOptional_asWord]
      rfl
  | file value =>
    cases value with
    | none =>
      obtain rfl : text = "null".toList := h
      exact ⟨.null, .of_leaf fun _ _ => rfl, fun _ => rfl⟩
    | some value => exact ⟨_, WritesString.readsAs h, fun _ => rfl⟩
  | mappings value => exact ⟨_, WritesString.readsAs h, fun _ => rfl⟩
  | sources values =>
    refine ⟨_, WritesStrings.readsAs h, fun map => ?_⟩
    rw [store_sources, Json.asList_strings]
    rfl
  | names values =>
    refine ⟨_, WritesStrings.readsAs h, fun map => ?_⟩
    rw [store_names, Json.asList_strings]
    rfl
  | other key unknown =>
    obtain ⟨draft, hskip, hreads⟩ := IsValue.passes h
    exact ⟨draft, hreads, hskip⟩

/-! ### Objects and arrays -/

/-- A member of a draft has the key of a member, and a value that is stored as the member's. -/
def Member.Takes (member : Member) (part : Except Flaw String × Draft) : Prop :=
  part.1 = .ok member.key ∧ member.Stored part.2

theorem Member.Writes.exists_takes {member : Member} {text : List Char} (h : member.Writes text) :
    ∃ part, ReadsAsMember text part ∧ member.Takes part := by
  obtain ⟨key, value, hkey, hvalue, hjoins⟩ := h
  obtain ⟨draft, hreads, hstored⟩ := Member.exists_stored hvalue
  exact ⟨(.ok member.key, draft), .of_joins hjoins (Json.Token.next?_writesString hkey) hreads, rfl,
    hstored⟩

/-- An object is read by putting its members in, one by one. -/
theorem readMembers_eq {members : List Member} {parts : List (Except Flaw String × Draft)}
    (h : List.Forall₂ Member.Takes members parts) (hfields : DistinctFields members)
    {seen : List String}
    (hseen : ∀ member ∈ members, ∀ field ∈ member.field?, field.key ∉ seen) (map : SourceMap) :
    Draft.readMembers slots none seen parts map = .ok (members.foldl put map) := by
  induction h generalizing seen map with
  | nil =>
    have hrequired : slots.any (fun slot => slot.required && !seen.contains slot.key) = false := by
      simp [slots_eq, Field.required_slot]
    simp only [Draft.readMembers, hrequired]
    rfl
  | @cons member part members parts htakes _ ih =>
    obtain ⟨key, draft⟩ := part
    obtain ⟨rfl, hstored⟩ := htakes
    obtain ⟨hfirst, hlater⟩ := List.forall_mem_cons.mp hseen
    unfold Member.Stored at hstored
    cases hfield : member.field? with
    | none =>
      rw [hfield] at hstored
      have hput : map.put member = map := by
        cases member with
        | other key unknown => rfl
        | _ => cases hfield
      rw [Draft.readMembers, find?_slots_of_unknown (Member.ne_key_of_field?_eq_none hfield)]
      simp only [hstored, bind, Except.bind]
      rw [ih hfields.tail hlater, List.foldl_cons, hput]
    | some field =>
      rw [hfield] at hstored
      -- the key of this member is none of the later ones
      have hlater : ∀ later ∈ members, ∀ other ∈ later.field?, other.key ∉ field.key :: seen := by
        intro later hmem other hother hkey
        rcases List.mem_cons.mp hkey with hsame | hkey
        · rw [Field.key_injective hsame] at hother
          exact hfields.field?_ne hfield later hmem hother
        · exact hlater later hmem other hother hkey
      have hseen : seen.contains field.key = false := by
        simpa using hfirst field hfield
      rw [Draft.readMembers, Member.key_of_field? hfield, find?_slots_key]
      simp only [hseen, hstored map, bind, Except.bind, Bool.false_eq_true, if_false]
      exact ih hfields.tail hlater (map.put member)

/-- An array is read by putting in its items, as the members of the fields in their order. -/
theorem readItems_eq {fields : List Field} (more : List Field) {members : List Member}
    {drafts : List Draft} (hfields : members.map Member.field? = fields.map some)
    (h : List.Forall₂ Member.Stored members drafts) (map : SourceMap) :
    Draft.readItems ((fields ++ more).map Field.slot) drafts none map =
      .ok (members.foldl put map) := by
  induction h generalizing fields map with
  | nil =>
    obtain rfl : fields = [] := List.map_eq_nil_iff.mp hfields.symm
    cases more with
    | nil => rfl
    | cons field more => simp [Draft.readItems, Field.required_slot]
  | @cons member draft members drafts hstored _ ih =>
    obtain ⟨field, fields, rfl, hfield, hrest⟩ := List.map_eq_cons_iff.mp hfields.symm
    unfold Member.Stored at hstored
    rw [← hfield] at hstored
    rw [List.cons_append, List.map_cons, Draft.readItems]
    simp only [hstored map, bind, Except.bind]
    exact ih hrest.symm (map.put member)

theorem readText_of_writesObject {members : List Member} {text : String}
    (hfields : DistinctFields members) (htext : WritesObject members text) :
    Json.readText reader text = .ok (members.foldl put {}) := by
  obtain ⟨texts, part, htexts, henclosed, htext⟩ := htext
  obtain ⟨parts, hreads, htakes⟩ :=
    Json.exists_forall₂_of_forall₂ htexts fun _ _ => Member.Writes.exists_takes
  rw [htext.readText_eq (.object henclosed hreads)]
  exact readMembers_eq htakes hfields (fun _ _ _ _ => List.not_mem_nil) {}

theorem readText_of_writesArray {members : List Member} {text : String} {k : Nat}
    (hfields : members.map Member.field? = (Field.all.take k).map some)
    (htext : WritesArray members text) :
    Json.readText reader text = .ok (members.foldl put {}) := by
  obtain ⟨texts, part, htexts, henclosed, htext⟩ := htext
  obtain ⟨drafts, hreads, hstored⟩ :=
    Json.exists_forall₂_of_forall₂ htexts fun _ _ => Member.exists_stored
  rw [htext.readText_eq (.array henclosed hreads)]
  have hitems := readItems_eq (Field.all.drop k) hfields hstored {}
  rwa [List.take_append_drop, ← slots_eq] at hitems

/-- An object with each field once at most is read as the source map that has its members, and
defaults for the fields that are missing. So is every other object with the same members in any
order, in any spelling, with or without members that have their defaults, and with any members
among them that do not count. If the members are those of the first fields, the array of their
values is read as the same source map. -/
theorem readText_eq_of_members {members : List Member} {text : String}
    (hfields : DistinctFields members) (htext : WritesObject members text) :
    ∃ map : SourceMap, Json.readText reader text = .ok map ∧ map.HasMembers members ∧
      (∀ missing others another, SameKnown members others missing →
        WritesObject others another → Json.readText reader another = .ok map) ∧
      ∀ k ≤ 5, ∀ row another, row.map Member.field? = (Field.all.take k).map some →
        row.Perm (known members) → WritesArray row another →
        Json.readText reader another = .ok map := by
  refine ⟨members.foldl put {}, readText_of_writesObject hfields htext,
    hasMembers_foldl_put hfields, ?_, ?_⟩
  · intro missing others another hsame hanother
    rw [readText_of_writesObject (hsame.distinctFields hfields) hanother,
      hsame.foldl_put_eq hfields]
  · intro k _ row another hrow hperm hanother
    have hknown : known row = row := by
      rw [known, List.filter_eq_self]
      exact fun entry hentry => (List.mem_filter.mp (hperm.mem_iff.mp hentry)).2
    have hsame : SameKnown members row [] := by
      refine ⟨.nil, by simp, ?_⟩
      rwa [hknown, List.map_nil, List.append_nil]
    rw [readText_of_writesArray hrow hanother, hsame.foldl_put_eq hfields]

/-- A member that is written without blanks. -/
theorem Member.writes_compact {member : Member} {value : List Char}
    (h : member.WritesValue value) :
    member.Writes ((Json.Quoted.write member.key).toList ++ ':' :: value) :=
  ⟨_, value, Json.Quoted.writesString_write member.key, h, [], [], Json.isBlank_nil,
    Json.isBlank_nil, rfl⟩

/-- The version inside the member that does not count has no influence, and neither have the
order of the members, the list of names that is empty anyway, or the use of an array. -/
theorem readText_eq_of_members_nested :
    ∃ map : SourceMap, map.version = some 3 ∧
      Json.readText reader
        "\x7b\"x\" : \x7b\"version\":[null]\x7d,\"file\":\"f\",\"version\":3\x7d" = .ok map ∧
      Json.readText reader
        "\x7b\"names\":[],\"version\":3,\"file\":\"f\"\x7d" = .ok map ∧
      Json.readText reader "[3,\"f\"]" = .ok map := by
  have hunknown : ∀ field : Field, field.key ≠ "x" := by
    intro field
    cases field <;> decide
  have hversion : (Member.version (some 3)).WritesValue "3".toList := by
    show "3".toList = _
    decide
  have hfile : (Member.file (some "f")).WritesValue (Json.Quoted.write "f").toList :=
    Json.Quoted.writesString_write "f"
  have hnames : (Member.names []).WritesValue "[]".toList :=
    ⟨[], .nil, .empty Json.isBlank_nil⟩
  have hnested : (Member.other "x" hunknown).WritesValue
      (Json.compact (.object [("version", .array [.null])])).toList :=
    Json.isValue_compact _ ⟨trivial, ⟨trivial, trivial, trivial⟩, trivial⟩
  have hblanks : (Member.other "x" hunknown).Writes
      ((Json.Quoted.write "x").toList ++ ([' '] ++ ':' :: ([' '] ++ _))) :=
    ⟨_, _, Json.Quoted.writesString_write "x", hnested, [' '], [' '], by decide, by decide, rfl⟩
  have hfirst : WritesObject [.other "x" hunknown, .file (some "f"), .version (some 3)]
      "\x7b\"x\" : \x7b\"version\":[null]\x7d,\"file\":\"f\",\"version\":3\x7d" := by
    refine ⟨_, _, .cons hblanks (.cons (Member.writes_compact hfile)
      (.cons (Member.writes_compact hversion) .nil)),
      .parts (((Json.separated_singleton _).comma _).comma _), [], [],
      Json.isBlank_nil, Json.isBlank_nil, ?_⟩
    decide +kernel
  have hsecond : WritesObject [.names [], .version (some 3), .file (some "f")]
      "\x7b\"names\":[],\"version\":3,\"file\":\"f\"\x7d" := by
    refine ⟨_, _, .cons (Member.writes_compact hnames) (.cons (Member.writes_compact hversion)
      (.cons (Member.writes_compact hfile) .nil)),
      .parts (((Json.separated_singleton _).comma _).comma _), [], [],
      Json.isBlank_nil, Json.isBlank_nil, ?_⟩
    decide +kernel
  have hthird : WritesArray [.version (some 3), .file (some "f")] "[3,\"f\"]" := by
    refine ⟨_, _, .cons hversion (.cons hfile .nil), .parts ((Json.separated_singleton _).comma _),
      [], [], Json.isBlank_nil, Json.isBlank_nil, ?_⟩
    decide +kernel
  have hfields : DistinctFields [.other "x" hunknown, .file (some "f"), .version (some 3)] := by
    show [Field.file, .version].Nodup
    decide
  obtain ⟨map, hread, hmembers, hobject, harray⟩ := readText_eq_of_members hfields hfirst
  refine ⟨map, Member.version.inj (hmembers .version), hread, ?_, ?_⟩
  · refine hobject [.names] _ _ ⟨by decide, by simp [Member.field?], ?_⟩ hsecond
    exact List.reverse_perm ([.file (some "f"), .version (some 3), .names []] : List Member)
  · refine harray 2 (by decide) _ _ rfl ?_ hthird
    exact List.reverse_perm ([.file (some "f"), .version (some 3)] : List Member)

/-- A key may be spelled by units, and what does not count may be no number and no string. -/
example :
    Json.readText reader
        "\x7b\"m\\u0061ppings\":\"A\",\"x\":[1e999,\"\\ud800\"],\"x\":0\x7d" =
      .ok { mappings := "A" } := by
  decide +kernel

end SourceMap

end SourceMapIndex
