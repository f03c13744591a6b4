import SourceMapIndex.Index.Json
import SourceMapIndex.Proofs.Json.RoundTrip
import SourceMapIndex.Word

/-!
# Pictures of an index

The text of an index is a nest of objects: sources, in each its lines, in each its columns,
and in each column an array of occurrences. A picture is what such a nest tells, and it is
read from the text member by member, in the order of the text. Nothing is skipped and no two
members are taken as one, so a picture shows every key that the text has.

## Main definitions

- `Picture` — sources with their lines, columns and occurrences, in the order of the text
- `Picture.toJson` — a picture as nested objects
- `Picture.ofJson?` — the picture that nested objects show
- `Picture.entries` — the entries that a picture shows
- `Json.DistinctKeys` — no object in a value has two members of one key

## Main results

- `Picture.ofJson?_toJson` — every picture is read back from its objects
- `Picture.parse_toJson` — and they are read back from their text
-/

namespace SourceMapIndex

/-- Sources with their lines, columns and occurrences, in the order of the text. -/
abbrev Picture :=
  List (String × List (UInt32 × List (UInt32 × List Occurrence)))

namespace Json

/-- If a value is an object, no two of its members have one key. -/
def KeysAreDistinct : Json → Prop
  | .object members => (members.map Prod.fst).Nodup
  | _ => True

/-- No object in a value has two members of one key. -/
def DistinctKeys (value : Json) : Prop :=
  value.Everywhere KeysAreDistinct

section Readers

variable {α κ : Type}

/-- The items of an array. -/
def itemsOf? (item? : Json → Option α) : Json → Option (List α)
  | .array items => items.mapM item?
  | _ => none

/-- The members of an object, in the order of the text. -/
def membersOf? (key? : String → Option κ) (value? : Json → Option α) :
    Json → Option (List (κ × α))
  | .object members => members.mapM fun (key, value) => do
    let key ← key? key
    let value ← value? value
    return (key, value)
  | _ => none

theorem mapM_map_eq_some {β : Type} {write : α → β} {read? : β → Option α}
    (h : ∀ a, read? (write a) = some a) (l : List α) : (l.map write).mapM read? = some l := by
  induction l with
  | nil => rfl
  | cons a rest ih => simp [h, ih]

theorem itemsOf?_array {write : α → Json} {item? : Json → Option α}
    (h : ∀ a, item? (write a) = some a) (l : List α) :
    itemsOf? item? (.array (l.map write)) = some l :=
  mapM_map_eq_some h l

theorem membersOf?_object {writeKey : κ → String} {write : α → Json} {key? : String → Option κ}
    {value? : Json → Option α} (hkey : ∀ k, key? (writeKey k) = some k)
    (h : ∀ a, value? (write a) = some a) (l : List (κ × α)) :
    membersOf? key? value? (.object (l.map fun (k, a) => (writeKey k, write a))) = some l := by
  refine mapM_map_eq_some ?_ l
  intro (k, a)
  simp [hkey, h]

end Readers

theorem everywhere_array {p : Json → Prop} {items : List Json} (hself : p (.array items))
    (h : ∀ item ∈ items, item.Everywhere p) : Everywhere p (.array items) :=
  ⟨hself, everyItem_iff.mpr h⟩

theorem everywhere_object {p : Json → Prop} {members : List (String × Json)}
    (hself : p (.object members)) (h : ∀ member ∈ members, member.2.Everywhere p) :
    Everywhere p (.object members) :=
  ⟨hself, everyMember_iff.mpr h⟩

end Json

namespace Word

open Json (membersOf?)

/-- The word of a number. -/
def ofJson? : Json → Option UInt32
  | .number (.int value) => ofInt? value
  | _ => none

/-- The word of a key in decimal digits. -/
def ofKey? (key : String) : Option UInt32 :=
  key.toNat?.bind fun n => ofInt? n

theorem ofJson?_ofNat (w : UInt32) : ofJson? (.ofNat w.toNat) = some w :=
  ofInt?_eq_some_iff.mpr rfl

theorem ofKey?_toString (w : UInt32) : ofKey? (toString w.toNat) = some w := by
  rw [Nat.toString_eq_repr, ofKey?, Nat.toNat?_repr, Option.bind_some]
  exact ofInt?_eq_some_iff.mpr rfl

theorem toString_injective {v w : UInt32} (h : toString v.toNat = toString w.toNat) : v = w := by
  rw [← Option.some.injEq, ← ofKey?_toString v, h, ofKey?_toString]

theorem isExact_ofNat (w : UInt32) : (Json.ofNat w.toNat).IsExact := by
  have hlt := w.toNat_lt
  change (-9223372036854775808 : Int) ≤ w.toNat ∧ (w.toNat : Int) < 18446744073709551616
  omega

end Word

namespace Occurrence

/-- The occurrence that an object shows; without the member of a name it has none. -/
def ofJson? : Json → Option Occurrence
  | .object [("line", line), ("col", column)] => do
    let line ← Word.ofJson? line
    let column ← Word.ofJson? column
    return ⟨⟨line, column⟩, none⟩
  | .object [("line", line), ("col", column), ("name", .string name)] => do
    let line ← Word.ofJson? line
    let column ← Word.ofJson? column
    return ⟨⟨line, column⟩, some name⟩
  | _ => none

theorem ofJson?_toJson (o : Occurrence) : ofJson? o.toJson = some o := by
  obtain ⟨⟨line, column⟩, name⟩ := o
  cases name <;> simp [toJson, ofJson?, Word.ofJson?_ofNat]

theorem everywhere_toJson {p : Json → Prop} (o : Occurrence) (hself : p o.toJson)
    (hword : ∀ w : UInt32, p (.ofNat w.toNat)) (hname : ∀ name, p (.string name)) :
    o.toJson.Everywhere p := by
  obtain ⟨⟨line, column⟩, name⟩ := o
  cases name with
  | none => exact ⟨hself, hword line, hword column, trivial⟩
  | some name => exact ⟨hself, hword line, hword column, hname name, trivial⟩

end Occurrence

namespace Picture

open Json (everywhere_array everywhere_object itemsOf? membersOf?)

/-- The lines of a source as an object. -/
def linesToJson (lines : List (UInt32 × List (UInt32 × List Occurrence))) : Json :=
  .object <| lines.map fun (line, columns) => (toString line.toNat, Shelf.columnsToJson columns)

/-- A picture as nested objects. -/
def toJson (picture : Picture) : Json :=
  .object <| picture.map fun (source, lines) => (source, linesToJson lines)

def columnsOfJson? : Json → Option (List (UInt32 × List Occurrence)) :=
  membersOf? Word.ofKey? (itemsOf? Occurrence.ofJson?)

def linesOfJson? : Json → Option (List (UInt32 × List (UInt32 × List Occurrence))) :=
  membersOf? Word.ofKey? columnsOfJson?

/-- The picture that nested objects show. Every member of them is read. -/
def ofJson? : Json → Option Picture :=
  membersOf? some linesOfJson?

/-- The entries that the lines of a source show. -/
def entriesOf (source : String) (lines : List (UInt32 × List (UInt32 × List Occurrence))) :
    List Entry :=
  lines.flatMap fun (line, columns) =>
    columns.map fun (column, occurrences) => ⟨source, ⟨line, column⟩, occurrences⟩

/-- The entries that a picture shows, in the order of the text. -/
def entries (picture : Picture) : List Entry :=
  picture.flatMap fun (source, lines) => entriesOf source lines

/-- Every picture is read back from its objects. -/
theorem ofJson?_toJson (picture : Picture) : ofJson? picture.toJson = some picture := by
  have hcolumns := Json.membersOf?_object Word.ofKey?_toString
    (Json.itemsOf?_array Occurrence.ofJson?_toJson)
  have hlines := Json.membersOf?_object Word.ofKey?_toString hcolumns
  have hsource : ∀ source : String, some (id source) = some source := fun _ => rfl
  exact Json.membersOf?_object hsource hlines picture

/-- What holds of the parts of a picture, from the occurrences to the picture itself, holds
everywhere in it. -/
theorem everywhere_toJson {p : Json → Prop} {picture : Picture} (hself : p picture.toJson)
    (hlines : ∀ source ∈ picture, p (linesToJson source.2))
    (hcolumns : ∀ source ∈ picture, ∀ line ∈ source.2, p (Shelf.columnsToJson line.2))
    (harray : ∀ items, p (.array items)) (hoccurrence : ∀ o : Occurrence, o.toJson.Everywhere p) :
    picture.toJson.Everywhere p := by
  refine everywhere_object hself ?_
  intro _ hmember
  obtain ⟨source, hsource, rfl⟩ := List.mem_map.mp hmember
  refine everywhere_object (hlines source hsource) ?_
  intro _ hmember
  obtain ⟨line, hline, rfl⟩ := List.mem_map.mp hmember
  refine everywhere_object (hcolumns source hsource line hline) ?_
  intro _ hmember
  obtain ⟨column, -, rfl⟩ := List.mem_map.mp hmember
  refine everywhere_array (harray _) ?_
  intro _ hitem
  obtain ⟨o, -, rfl⟩ := List.mem_map.mp hitem
  exact hoccurrence o

theorem isExact_toJson (picture : Picture) : picture.toJson.IsExact :=
  everywhere_toJson trivial (fun _ _ => trivial) (fun _ _ _ _ => trivial) (fun _ => trivial)
    fun o => o.everywhere_toJson trivial Word.isExact_ofNat fun _ => trivial

/-- The objects of a picture are read back from their text. -/
theorem parse_toJson (picture : Picture) :
    Json.parse picture.toJson.compact = .ok picture.toJson :=
  Json.parse_compact picture.isExact_toJson

theorem compact_injective {picture other : Picture}
    (h : picture.toJson.compact = other.toJson.compact) : picture = other := by
  have hparse := parse_toJson picture
  rw [h, parse_toJson, Except.ok.injEq] at hparse
  rw [← Option.some.injEq, ← ofJson?_toJson picture, ← hparse, ofJson?_toJson]

theorem nodup_map_toString {words : List UInt32} (h : words.Nodup) :
    (words.map fun w => toString w.toNat).Nodup :=
  List.pairwise_map.mpr (h.imp fun hne heq => hne (Word.toString_injective heq))

/-- Distinct sources, lines and columns have distinct keys. -/
theorem distinctKeys_toJson {picture : Picture} (hsources : (picture.map Prod.fst).Nodup)
    (hlines : ∀ source ∈ picture, (source.2.map Prod.fst).Nodup)
    (hcolumns : ∀ source ∈ picture, ∀ line ∈ source.2, (line.2.map Prod.fst).Nodup) :
    picture.toJson.DistinctKeys := by
  refine everywhere_toJson ?_ ?_ ?_ (fun _ => trivial) ?_
  · simpa [toJson, Json.KeysAreDistinct, Function.comp_def] using hsources
  · intro source hsource
    simpa [linesToJson, Json.KeysAreDistinct, Function.comp_def] using
      nodup_map_toString (hlines source hsource)
  · intro source hsource line hline
    simpa [Shelf.columnsToJson, Json.KeysAreDistinct, Function.comp_def] using
      nodup_map_toString (hcolumns source hsource line hline)
  · intro o
    refine o.everywhere_toJson ?_ (fun _ => trivial) fun _ => trivial
    obtain ⟨location, name⟩ := o
    cases name <;> simp [Occurrence.toJson, Json.KeysAreDistinct]

end Picture

end SourceMapIndex
