import SourceMapIndex.Proofs.Index.Observation
import SourceMapIndex.Proofs.SourceMap.Build
import SourceMapIndex.Proofs.SourceMap.SourceTable

/-!
# Tables that grow

Entries that are put behind the tables of a source map take nothing from the index. Whatever
was found in a table is found at its old place, so a token is judged as it was, unless it was
refused for an index outside its table. The sources that were mapped keep their places, also
when one of the new sources is an old one with another query; sources that are new have a
place behind them and no entries.

## Main definitions

- `SameUnlessMissing` — two attempts that differ only where the first misses a table entry
- `SourceMap.extend` — a source map with more entries behind its tables
- `Index.GrowsTo` — an index with the same entries, whose table goes on

## Main results

- `Tables.judge_extend` — what more entries change in the judgement of a token
- `Mappings.readAll_eq_or_missing` — what that changes in a reading
- `SourceMap.index_extend` — what they change in a build
-/

namespace SourceMapIndex

/-- Two attempts end alike, unless the first has missed an entry of a table. -/
def SameUnlessMissing {α : Type} (first second : Except Reason α) : Prop :=
  second = first ∨ ∃ reason, first = .error reason ∧ reason.concernsTable = true

namespace SameUnlessMissing

variable {α β : Type} {first second : Except Reason α}

theorem refl (first : Except Reason α) : SameUnlessMissing first first :=
  Or.inl rfl

theorem map (h : SameUnlessMissing first second) (f : α → β) :
    SameUnlessMissing (first.map f) (second.map f) := by
  rcases h with rfl | ⟨reason, rfl, htable⟩
  · exact refl _
  · exact Or.inr ⟨reason, rfl, htable⟩

/-- What has missed nothing so far may still do so in what follows. -/
theorem bind (h : SameUnlessMissing first second) {next other : α → Except Reason β}
    (hnext : ∀ a, SameUnlessMissing (next a) (other a)) :
    SameUnlessMissing (first.bind next) (second.bind other) := by
  rcases h with rfl | ⟨reason, rfl, htable⟩
  · cases second with
    | error reason => exact refl _
    | ok a => exact hnext a
  · exact Or.inr ⟨reason, rfl, htable⟩

end SameUnlessMissing

namespace Mappings

/-- If the judgements of every token end alike, so do the readings, unless the first has come to
a token that misses an entry. -/
theorem readAll_eq_or_missing {α : Type} {judge other : List Token → Token → Except Reason α}
    (h : ∀ before token, SameUnlessMissing (judge before token) (other before token))
    (before tokens : List Token) :
    readAll other before tokens = readAll judge before tokens ∨
      ∃ failure, (readAll judge before tokens).failure = some failure ∧
        failure.reason.concernsTable = true := by
  induction tokens generalizing before with
  | nil => exact Or.inl rfl
  | cons token rest ih =>
    rcases h before token with hsame | ⟨reason, hreason, htable⟩
    · cases hjudge : judge before token with
      | error reason =>
        rw [readAll_cons_error hjudge, readAll_cons_error (hsame.trans hjudge)]
        exact Or.inl rfl
      | ok value =>
        rw [readAll_cons_ok hjudge, readAll_cons_ok (hsame.trans hjudge)]
        rcases ih (before ++ [token]) with hrest | hrest
        · rw [hrest]
          exact Or.inl rfl
        · exact Or.inr hrest
    · rw [readAll_cons_error hreason]
      exact Or.inr ⟨_, rfl, htable⟩

end Mappings

namespace Tables

/-- The tables with more entries behind them. -/
def extend (tables : Tables) (sources names : Array String) : Tables where
  sources := tables.sources ++ sources
  names := tables.names ++ names

/-- An entry that is found in a table is found at the same place with more entries behind it. -/
theorem entry?_append_cases (table more : Array String) (index : Int) :
    (∃ entry, entry? table index = some entry ∧ entry? (table ++ more) index = some entry) ∨
      entry? table index = none := by
  cases hentry : entry? table index with
  | none => exact Or.inr rfl
  | some entry =>
    refine Or.inl ⟨entry, rfl, ?_⟩
    unfold entry? at hentry ⊢
    split at hentry
    · next hindex =>
      obtain ⟨hlt, -⟩ := Array.getElem?_eq_some_iff.mp hentry
      rw [if_pos hindex, Array.getElem?_append_left hlt, hentry]
    · cases hentry

variable {tables : Tables} (sources names : Array String)

theorem source_extend (index : Int) :
    SameUnlessMissing (tables.source index) ((tables.extend sources names).source index) := by
  rcases entry?_append_cases tables.sources sources index with ⟨entry, hentry, hmore⟩ | hnone
  · left
    simp only [source, extend, hentry, hmore]
  · right
    exact ⟨.sourceOutOfRange index tables.sources.size, by simp only [source, hnone], rfl⟩

theorem name_extend (index : Int) :
    SameUnlessMissing (tables.name index) ((tables.extend sources names).name index) := by
  rcases entry?_append_cases tables.names names index with ⟨entry, hentry, hmore⟩ | hnone
  · left
    simp only [Tables.name, extend, hentry, hmore]
  · right
    exact ⟨.nameOutOfRange index tables.names.size, by simp only [Tables.name, hnone], rfl⟩

theorem name?_extend (name : Option Int) :
    SameUnlessMissing (tables.name? name) ((tables.extend sources names).name? name) := by
  cases name with
  | none => exact SameUnlessMissing.refl _
  | some index => exact (name_extend sources names index).map some

/-- A mapping is resolved as before, unless one of its indices was outside its table. -/
theorem resolve_extend (mapping : Mapping) :
    SameUnlessMissing (tables.resolve mapping) ((tables.extend sources names).resolve mapping) :=
  (source_extend sources names mapping.source).bind fun _ =>
    (name?_extend sources names mapping.name).bind fun _ => SameUnlessMissing.refl _

/-- A token is judged as before, unless it was refused for an index outside its table. -/
theorem judge_extend (before : List Mappings.Token) (token : Mappings.Token) :
    SameUnlessMissing (tables.judge before token)
      ((tables.extend sources names).judge before token) :=
  (SameUnlessMissing.refl (token.judge before)).bind (resolve_extend sources names)

theorem sourceTable_prefix_extend :
    tables.sourceTable <+: (tables.extend sources names).sourceTable := by
  simp only [sourceTable, extend, Array.toList_append, List.map_append, List.eraseDups_append]
  exact List.prefix_append _ _

end Tables

namespace Index

/-- Another index has the same entries, and so the same answers, and its source table goes on
behind the table of this one. -/
structure GrowsTo (index other : Index) : Prop extends SameContents index other where
  sourceTable : index.sourceTable <+: other.sourceTable
  generatedLines : index.generatedLines = other.generatedLines

end Index

namespace SourceMap

/-- The source map with more entries behind its tables. -/
def extend (map : SourceMap) (sources names : Array String) : SourceMap :=
  { map with sources := map.sources ++ sources, names := map.names ++ names }

variable {map : SourceMap} {options : Options} {index : Index}

theorem reading_extend (map : SourceMap) (sources names : Array String) :
    (map.extend sources names).reading = map.reading ∨
      ∃ failure, map.reading.failure = some failure ∧ failure.reason.concernsTable = true := by
  have hjudge (before : List Mappings.Token) (token : Mappings.Token) :
      SameUnlessMissing (map.tables.judge before token)
        ((map.extend sources names).tables.judge before token) :=
    Tables.judge_extend sources names before token
  exact Mappings.readAll_eq_or_missing hjudge [] (Mappings.tokens map.mappings)

section Extend

variable {sources names : Array String}

/-- Where nothing was missed, the same mappings are filed behind a longer table. -/
theorem growsTo_of_reading_eq {other : Index} (hindex : map.index options = .ok index)
    (hother : (map.extend sources names).index options = .ok other)
    (hreading : (map.extend sources names).reading = map.reading) : index.GrowsTo other := by
  have hfiled := isFiled_of_index hindex
  have hfiledOther := isFiled_of_index hother
  have htable : index.sourceTable <+: other.sourceTable := by
    rw [sourceTable_of_index hindex, sourceTable_of_index hother]
    exact Tables.sourceTable_prefix_extend sources names
  have hvalues := (reading_of_index hindex).2
  have hvaluesOther := (reading_of_index hother).2
  rw [hreading] at hvaluesOther
  have hget (source : String) (origin : Location) :
      index.get? source origin = other.get? source origin := by
    rw [hvalues, hvaluesOther, Builder.get?_finish, Builder.get?_finish]
  have hentries := Index.entries_eq_of_get? hfiled.nodup_sourceTable
    hfiledOther.nodup_sourceTable htable hget
  exact {
    Index.sameContents_of_entries_eq hfiled hfiledOther hentries with
    sourceTable := htable
    generatedLines := by rw [hvalues, hvaluesOther]; rfl }

/-- The version is looked at before the tables, which are all that differs. -/
theorem refusedVersion?_extend :
    (map.extend sources names).refusedVersion? options = map.refusedVersion? options :=
  rfl

theorem exists_growsTo_of_index (h : map.index options = .ok index) :
    ∃ other, (map.extend sources names).index options = .ok other ∧ index.GrowsTo other := by
  have hversion := refusedVersion?_of_index h
  have hfailure := (reading_of_index h).1
  rcases map.reading_extend sources names with hreading | ⟨failure, hmissing, -⟩
  · rw [← hreading] at hfailure
    have hother := index_of_no_failure (refusedVersion?_extend.trans hversion) hfailure
    exact ⟨_, hother, growsTo_of_reading_eq h hother hreading⟩
  · rw [hfailure] at hmissing
    cases hmissing

theorem index_extend_of_failure {failure : Failure} (h : map.index options = .error failure)
    (htable : failure.reason.concernsTable = false) :
    (map.extend sources names).index options = .error failure := by
  cases hversion : map.refusedVersion? options with
  | some version =>
    rw [index_of_refusedVersion hversion] at h
    rw [index_of_refusedVersion (refusedVersion?_extend.trans hversion), h]
  | none =>
    have hfailure := failure_reading_of_index hversion h
    rcases map.reading_extend sources names with hreading | ⟨missing, hmissing, hmisses⟩
    · rw [← hreading] at hfailure
      exact index_of_failure (refusedVersion?_extend.trans hversion) hfailure
    · rw [Option.some.inj (hmissing.symm.trans hfailure), htable] at hmisses
      cases hmisses

end Extend

/-- With more entries behind its tables a source map keeps its index, but for the sources that
are new in the table, and it keeps every failure that is not an index outside a table. -/
theorem index_extend (map : SourceMap) (options : Options) (sources names : Array String) :
    (∀ index, map.index options = .ok index →
      ∃ other, (map.extend sources names).index options = .ok other ∧ index.GrowsTo other) ∧
    ∀ failure, map.index options = .error failure → failure.reason.concernsTable = false →
      (map.extend sources names).index options = .error failure := by
  constructor
  · intro index hindex
    exact exists_growsTo_of_index hindex
  · intro failure hfailure htable
    exact index_extend_of_failure hfailure htable

/-- Of the two new sources one has a query and is the old one; it gets no place of its own.
Behind a blank segment, a source that only the longer table has is not looked up. -/
theorem index_extend_shared_source :
    let map := ofMappings "AAAAA" #["a.js"] #["n"]
    let grown := map.extend #["a.js?v=2", "b.js"] #["m"]
    let broken := ofMappings "AAAAA,;ACAA" #["a.js"] #["n"]
    let failure : Failure := ⟨.emptySegment, 0, 1⟩
    (∃ index other, map.index = .ok index ∧ grown.index = .ok other ∧ index.GrowsTo other ∧
      index.get? "a.js" ⟨0, 0⟩ = some [⟨⟨0, 0⟩, some "n"⟩] ∧
        other.sourceTable = ["a.js", "b.js"]) ∧
    broken.index = .error failure ∧
      (broken.extend #["a.js?v=2", "b.js"] #["m"]).index = .error failure := by
  intro map grown broken failure
  constructor
  · have hanswer : (map.index.toOption.map fun index => index.get? "a.js" ⟨0, 0⟩) =
        some (some [⟨⟨0, 0⟩, some "n"⟩]) := by
      cbv
    obtain ⟨index, hfound, hget⟩ := Option.map_eq_some_iff.mp hanswer
    have hindex : map.index = .ok index := index_of_toOption hfound
    obtain ⟨other, hother, hgrows⟩ :=
      (index_extend map {} #["a.js?v=2", "b.js"] #["m"]).1 index hindex
    have htable : grown.tables.sourceTable = ["a.js", "b.js"] := by cbv
    exact ⟨index, other, hindex, hother, hgrows, hget, (sourceTable_of_index hother).trans htable⟩
  · have hbroken : broken.index = .error failure := by cbv
    exact ⟨hbroken, (index_extend broken {} #["a.js?v=2", "b.js"] #["m"]).2 failure hbroken rfl⟩

end SourceMap

end SourceMapIndex
