import SourceMapIndex.Tables

/-!
# Resolving by table ranges

An index has an entry in a table if it lies in the range of the table. A mapping is resolved
if its source does and its name does, where it has one. The source is looked up first.

## Main definitions

- `Tables.Covers` — an index lies in the range of a table
- `Tables.sourceOf?`, `Tables.nameOf?` — the table entries that a mapping speaks of
- `Tables.flaw?` — why a mapping is not resolved, if it is not
- `Tables.Finds` — a resolved mapping has the table entries of a mapping

## Main results

- `Tables.resolve_cases` — all that can come of resolving a mapping
-/

namespace SourceMapIndex

def Resolved.occurrence (mapping : Resolved) : Occurrence :=
  ⟨mapping.generated, mapping.name⟩

/-- A mapping with a name is filed as its place with this name. -/
theorem Resolved.occurrence_eq_withName {mapping : Resolved} {name : String}
    (h : mapping.name = some name) :
    mapping.occurrence = Occurrence.withName ⟨mapping.generated, none⟩ name := by
  rw [occurrence, h]
  rfl

namespace Tables

variable (tables : Tables)

/-- An index lies in the range of a table. -/
def Covers (table : Array String) (index : Int) : Prop :=
  0 ≤ index ∧ index < table.size

instance (table : Array String) (index : Int) : Decidable (Covers table index) :=
  inferInstanceAs (Decidable (_ ∧ _))

theorem not_covers_iff {table : Array String} {index : Int} :
    ¬Covers table index ↔ index < 0 ∨ table.size ≤ index := by
  unfold Covers
  omega

theorem exists_entry_iff {table : Array String} {index : Int} :
    (∃ entry, entry? table index = some entry) ↔ Covers table index := by
  unfold entry? Covers
  by_cases hindex : 0 ≤ index
  · rw [if_pos hindex, ← Option.isSome_iff_exists, isSome_getElem?]
    omega
  · rw [if_neg hindex]
    simp [hindex]

theorem entry_eq_none_iff {table : Array String} {index : Int} :
    entry? table index = none ↔ ¬Covers table index := by
  rw [← exists_entry_iff, ← Option.ne_none_iff_exists']
  exact Decidable.not_not.symm

/-- The source of a mapping without its query, if the table has it. -/
def sourceOf? (mapping : Mapping) : Option String :=
  Source.withoutQuery <$> entry? tables.sources mapping.source

def nameOf? (mapping : Mapping) : Option String :=
  mapping.name.bind fun index => entry? tables.names index

/-- The occurrence of a mapping, with its name from the table. -/
def occurrenceOf (mapping : Mapping) : Occurrence :=
  ⟨mapping.generated, tables.nameOf? mapping⟩

def HasSource (mapping : Mapping) : Prop :=
  Covers tables.sources mapping.source

/-- The name of a mapping is in the table, if it has one. -/
def HasName (mapping : Mapping) : Prop :=
  ∀ index ∈ mapping.name, Covers tables.names index

def sourceFlaw? (index : Int) : Option Reason :=
  if Covers tables.sources index then none
  else some (.sourceOutOfRange index tables.sources.size)

def nameFlaw? : Option Int → Option Reason
  | none => none
  | some index =>
    if Covers tables.names index then none
    else some (.nameOutOfRange index tables.names.size)

/-- Why a mapping is not resolved, if it is not: its source comes before its name. -/
def flaw? (mapping : Mapping) : Option Reason :=
  (tables.sourceFlaw? mapping.source).or (tables.nameFlaw? mapping.name)

/-- A resolved mapping is a mapping with its table entries. -/
structure Finds (mapping : Mapping) (resolved : Resolved) : Prop where
  source : tables.sourceOf? mapping = some resolved.source
  origin : resolved.origin = mapping.origin
  occurrence : resolved.occurrence = tables.occurrenceOf mapping

theorem flaw?_eq_none_iff (mapping : Mapping) :
    tables.flaw? mapping = none ↔ tables.HasSource mapping ∧ tables.HasName mapping := by
  rw [flaw?, Option.or_eq_none_iff]
  refine and_congr (by simp [sourceFlaw?, HasSource]) ?_
  cases hname : mapping.name with
  | none => simp [nameFlaw?, HasName, hname]
  | some index => simp [nameFlaw?, HasName, hname]

theorem source_cases (index : Int) :
    (∃ reason, tables.sourceFlaw? index = some reason ∧ tables.source index = .error reason) ∨
      (tables.sourceFlaw? index = none ∧ ∃ entry, entry? tables.sources index = some entry ∧
        tables.source index = .ok (Source.withoutQuery entry)) := by
  unfold source sourceFlaw?
  by_cases h : Covers tables.sources index
  · obtain ⟨entry, hentry⟩ := exists_entry_iff.mpr h
    exact Or.inr ⟨if_pos h, entry, hentry, by simp only [hentry]⟩
  · exact Or.inl ⟨_, if_neg h, by simp only [entry_eq_none_iff.mpr h]⟩

theorem name?_cases (name : Option Int) :
    (∃ reason, tables.nameFlaw? name = some reason ∧ tables.name? name = .error reason) ∨
      (tables.nameFlaw? name = none ∧
        tables.name? name = .ok (name.bind fun index => entry? tables.names index)) := by
  cases name with
  | none => exact Or.inr ⟨rfl, rfl⟩
  | some index =>
    simp only [name?, nameFlaw?, Tables.name, Option.bind_some]
    by_cases h : Covers tables.names index
    · obtain ⟨entry, hentry⟩ := exists_entry_iff.mpr h
      exact Or.inr ⟨if_pos h, by simp only [hentry, Except.map]⟩
    · exact Or.inl ⟨_, if_neg h, by simp only [entry_eq_none_iff.mpr h, Except.map]⟩

/-- A mapping fails to be resolved for its flaw, and is resolved to its table entries if it
has none. -/
theorem resolve_cases (mapping : Mapping) :
    (∃ reason, tables.flaw? mapping = some reason ∧ tables.resolve mapping = .error reason) ∨
      (tables.flaw? mapping = none ∧ ∃ resolved, tables.resolve mapping = .ok resolved ∧
        tables.Finds mapping resolved) := by
  rcases tables.source_cases mapping.source with
    ⟨reason, hflaw, hsource⟩ | ⟨hflaw, entry, hentry, hsource⟩
  · -- without a source the name is not looked up
    refine Or.inl ⟨reason, by rw [flaw?, hflaw]; rfl, ?_⟩
    rw [resolve, hsource]
    rfl
  · rcases tables.name?_cases mapping.name with ⟨reason, hnameFlaw, hname⟩ | ⟨hnameFlaw, hname⟩
    · refine Or.inl ⟨reason, by rw [flaw?, hflaw, hnameFlaw]; rfl, ?_⟩
      rw [resolve, hsource, hname]
      rfl
    · let resolved : Resolved :=
        ⟨Source.withoutQuery entry, mapping.origin, mapping.generated, tables.nameOf? mapping⟩
      refine Or.inr ⟨by rw [flaw?, hflaw, hnameFlaw]; rfl, resolved, ?_, ?_⟩
      · rw [resolve, hsource, hname]
        rfl
      · exact ⟨by rw [sourceOf?, hentry]; rfl, rfl, rfl⟩

end Tables

end SourceMapIndex
