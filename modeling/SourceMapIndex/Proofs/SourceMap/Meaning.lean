import Mathlib
import SourceMapIndex.Proofs.Index.Filing
import SourceMapIndex.Proofs.Mappings.Deltas
import SourceMapIndex.Proofs.SourceMap.Build

/-!
# What an index holds

An index answers for a location of a source with the occurrences of the mappings that go
there, in the order of the mapping string. The mappings are those that the decoder gives;
the sources and the names are those of the tables, where entries that differ in their
queries only are one source.

## Main definitions

- `Tables.occurrencesAt` — the occurrences of some mappings at a location of a source
- `Index.Holds` — what an index holds in terms of the mappings of the mapping string

## Main results

- `SourceMap.index_holds` — every index of a source map holds that
-/

namespace SourceMapIndex

open Mappings (Token readAll tokens)

namespace Tables

variable {tables : Tables}

/-- The occurrences of some mappings at a location of a source, in the order of the mappings
and as often as they come up. -/
def occurrencesAt (tables : Tables) (mappings : List Mapping) (source : String)
    (origin : Location) : List Occurrence :=
  (mappings.filter fun mapping =>
    tables.sourceOf? mapping = some source ∧ mapping.origin = origin).map tables.occurrenceOf

theorem finds_of_resolve {mapping : Mapping} {resolved : Resolved}
    (h : tables.resolve mapping = .ok resolved) :
    tables.flaw? mapping = none ∧ tables.Finds mapping resolved := by
  rcases tables.resolve_cases mapping with ⟨reason, _, herror⟩ | ⟨hflaw, found, hfound, hfinds⟩
  · rw [herror] at h
    cases h
  · rw [hfound] at h
    cases h
    exact ⟨hflaw, hfinds⟩

theorem inTables_of_map_resolve {mappings : List Mapping} {values : List Resolved}
    (h : mappings.map tables.resolve = values.map .ok) {mapping : Mapping}
    (hmapping : mapping ∈ mappings) : tables.HasSource mapping ∧ tables.HasName mapping := by
  have hmem : tables.resolve mapping ∈ values.map .ok := h ▸ List.mem_map_of_mem hmapping
  obtain ⟨resolved, _, hresolved⟩ := List.mem_map.mp hmem
  exact (tables.flaw?_eq_none_iff mapping).mp (finds_of_resolve hresolved.symm).1

/-- What resolved mappings file at a location is what the mappings themselves have there. -/
theorem filed_of_map_resolve {mappings : List Mapping} {values : List Resolved}
    (h : mappings.map tables.resolve = values.map .ok) (source : String) (origin : Location) :
    Builder.filed values source origin = tables.occurrencesAt mappings source origin := by
  induction mappings generalizing values with
  | nil =>
    have hvalues : values = [] := by simpa using h.symm
    rw [hvalues]
    rfl
  | cons mapping rest ih =>
    cases values with
    | nil => simp at h
    | cons resolved others =>
      simp only [List.map_cons, List.cons.injEq] at h
      obtain ⟨_, hsource, horigin, hoccurrence⟩ := finds_of_resolve h.1
      -- a mapping goes to the location exactly if what it is resolved to does
      have hhere : (resolved.source = source ∧ resolved.origin = origin) ↔
          (tables.sourceOf? mapping = some source ∧ mapping.origin = origin) := by
        rw [hsource, horigin, Option.some.injEq]
      have hrest := ih h.2
      simp only [Builder.filed, occurrencesAt, List.filter_cons, decide_eq_true_eq] at hrest ⊢
      by_cases hthere : tables.sourceOf? mapping = some source ∧ mapping.origin = origin
      · rw [if_pos (hhere.mpr hthere), if_pos hthere, List.map_cons, List.map_cons, hoccurrence,
          hrest]
      · rw [if_neg (mt hhere.mp hthere), if_neg hthere, hrest]

end Tables

/-- What an index of a source map holds, when the decoder gives some mappings. -/
structure Index.Holds (index : Index) (map : SourceMap) (mappings : List Mapping) : Prop where
  /-- The decoder gives these mappings, in this order, and then nothing. -/
  answers : ∀ i, (Decoder.ofString map.mappings).answer i = mappings[i]?.map .ok
  /-- They speak of sources and names that are in the tables. -/
  inTables : ∀ mapping ∈ mappings, map.tables.HasSource mapping ∧ map.tables.HasName mapping
  /-- Any location of any source holds their occurrences there, and no others. -/
  get? : ∀ source origin,
    index.get? source origin =
      if map.tables.occurrencesAt mappings source origin = [] then none
      else some (map.tables.occurrencesAt mappings source origin)

namespace SourceMap

/-- If a source map has an index, the decoder gives mappings and no failure, and the index
holds the occurrences of these mappings, each at its origin in its source. -/
theorem index_holds {map : SourceMap} {options : Options} {index : Index}
    (h : map.index options = .ok index) : ∃ mappings, index.Holds map mappings := by
  obtain ⟨hread, hindex⟩ := reading_of_index h
  obtain ⟨hfailure, hresolve⟩ := Decoder.readAll_judgeBy hread
  refine ⟨(readAll Token.judge [] (tokens map.mappings)).values, ?_,
    fun _ => Tables.inTables_of_map_resolve hresolve, ?_⟩
  · intro i
    rw [Mappings.answer_eq_readAll, hfailure]
    simp
  · intro source origin
    rw [hindex, Builder.get?_finish]
    have hfiled := Tables.filed_of_map_resolve hresolve source origin
    change Builder.filed map.reading.values source origin = _ at hfiled
    rw [hfiled]

/-- Two table entries are one source here. The name of the first mapping does not go over to
the second. -/
theorem index_holds_shared_source :
    let map := ofMappings "AAAAA;ACAA" #["a.js?x", "a.js?y"] #["n"]
    ∃ index, map.index = .ok index ∧ (∃ mappings, index.Holds map mappings) ∧
      index.get? "a.js" ⟨0, 0⟩ = some [⟨⟨0, 0⟩, some "n"⟩, ⟨⟨1, 0⟩, none⟩] := by
  intro map
  have hget : (map.index.toOption.map fun index => index.get? "a.js" ⟨0, 0⟩) =
      some (some [⟨⟨0, 0⟩, some "n"⟩, ⟨⟨1, 0⟩, none⟩]) := by
    cbv
  cases hindex : map.index with
  | error failure =>
    rw [hindex] at hget
    cases hget
  | ok index =>
    rw [hindex] at hget
    exact ⟨index, rfl, index_holds hindex, Option.some.inj hget⟩

end SourceMap

end SourceMapIndex
