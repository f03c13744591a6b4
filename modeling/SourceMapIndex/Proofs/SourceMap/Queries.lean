import SourceMapIndex.Proofs.SourceMap.Build
import SourceMapIndex.SourceMap.Report

/-!
# Queries do not matter

A build looks at the sources of a source map twice: the builder gives each its shelf, and
every mapping has its source looked up. Nothing of a source but its path comes through either
way, and of the table as a whole only its size does, in a failure. So a source map can be
given with or without the queries of its sources, and nothing that comes of it changes.

## Main definitions

- `Tables.withoutQueries`, `SourceMap.withoutQueries` — with paths in place of sources
- `SourceMap.SameButQueries` — two source maps that differ in queries alone

## Main results

- `Tables.resolve_withoutQueries` — mappings are resolved as before
- `SourceMap.report_withoutQueries` — the build goes as before
- `SourceMap.index_eq_of_sameButQueries` — source maps that differ in queries have one index
-/

namespace SourceMapIndex

theorem Source.withoutQuery_withoutQuery (source : String) :
    withoutQuery (withoutQuery source) = withoutQuery source := by
  simp only [withoutQuery, String.toList_ofList, List.takeWhile_takeWhile, and_self,
    Bool.decide_eq_true]

namespace Tables

/-- The tables with the path of every source in its place. -/
def withoutQueries (tables : Tables) : Tables :=
  { tables with sources := tables.sources.map Source.withoutQuery }

theorem entry?_map (f : String → String) (table : Array String) (index : Int) :
    entry? (table.map f) index = f <$> entry? table index := by
  unfold entry?
  split
  · exact Array.getElem?_map
  · rfl

variable (tables : Tables)

theorem source_withoutQueries (index : Int) :
    tables.withoutQueries.source index = tables.source index := by
  simp only [source, withoutQueries, entry?_map, Array.size_map]
  cases entry? tables.sources index with
  | none => rfl
  | some entry => exact congrArg Except.ok (Source.withoutQuery_withoutQuery entry)

theorem resolve_withoutQueries : tables.withoutQueries.resolve = tables.resolve := by
  funext mapping
  simp only [resolve, source_withoutQueries]
  rfl

end Tables

namespace Builder

theorem receive_withoutQueries (tables : Tables) :
    receive tables.withoutQueries = receive tables := by
  rw [receive_eq_passOn, receive_eq_passOn, tables.resolve_withoutQueries]

theorem ofSources_withoutQueries (sources : List String) :
    ofSources (sources.map Source.withoutQuery) = ofSources sources := by
  have hpaths : (sources.map Source.withoutQuery).map Source.withoutQuery =
      sources.map Source.withoutQuery := by
    rw [List.map_map]
    exact List.map_congr_left fun source _ => Source.withoutQuery_withoutQuery source
  rw [ofSources, ofSources, hpaths]

end Builder

namespace SourceMap

/-- The source map with the path of every source in its place. -/
def withoutQueries (map : SourceMap) : SourceMap :=
  { map with sources := map.sources.map Source.withoutQuery }

/-- Two source maps have the same members but for the queries of their sources. -/
structure SameButQueries (map other : SourceMap) : Prop where
  version : map.version = other.version
  file : map.file = other.file
  mappings : map.mappings = other.mappings
  /-- There are as many sources, and place by place they have the same path. -/
  sources : map.sources.map Source.withoutQuery = other.sources.map Source.withoutQuery
  names : map.names = other.names

variable {map other : SourceMap}

theorem build_withoutQueries (map : SourceMap) (options : Options) :
    map.withoutQueries.build options = map.build options := by
  have htables : map.withoutQueries.tables = map.tables.withoutQueries := rfl
  have hsources : map.withoutQueries.sources.toList =
      map.sources.toList.map Source.withoutQuery := Array.toList_map
  simp only [build, htables, hsources, Builder.receive_withoutQueries,
    Builder.ofSources_withoutQueries]
  rfl

theorem report_withoutQueries (map : SourceMap) (options : Options) :
    map.withoutQueries.report options = map.report options := by
  have hspan : map.withoutQueries.span = map.span := by
    simp only [span, withoutQueries, Array.size_map]
  simp only [report, build_withoutQueries, hspan]

theorem SameButQueries.withoutQueries_eq (h : map.SameButQueries other) :
    map.withoutQueries = other.withoutQueries := by
  simp only [withoutQueries, h.version, h.file, h.mappings, h.sources, h.names]

/-- Source maps that differ in the queries of their sources come to the same end, which is the
same failure or the same index, and have the same log. So does a source map that is given with
paths only. -/
theorem index_eq_of_sameButQueries (h : map.SameButQueries other) (options : Options) :
    map.index options = other.index options ∧ map.report options = other.report options ∧
      map.withoutQueries.index options = map.index options := by
  have hpaths := h.withoutQueries_eq
  refine ⟨?_, ?_, ?_⟩
  · rw [index, ← build_withoutQueries map, hpaths, build_withoutQueries, index]
  · rw [← report_withoutQueries map, hpaths, report_withoutQueries]
  · rw [index, build_withoutQueries, index]

/-- The first source is the third one here, in either table. -/
theorem index_eq_of_sameButQueries_repeated :
    let map := ofMappings "AAAA,CEAA" #["a.js?v=1", "b.js", "a.js?v=2"] #[]
    let other := ofMappings "AAAA,CEAA" #["a.js", "b.js?x?y", "a.js?"] #[]
    map.SameButQueries other ∧ map.index = other.index ∧
      ∃ index, map.index = .ok index ∧
        index.get? "a.js" ⟨0, 0⟩ = some [⟨⟨0, 0⟩, none⟩, ⟨⟨0, 1⟩, none⟩] := by
  intro map other
  have hsame : map.SameButQueries other := by
    constructor <;> cbv
  have hanswer : (map.index.toOption.map fun index => index.get? "a.js" ⟨0, 0⟩) =
      some (some [⟨⟨0, 0⟩, none⟩, ⟨⟨0, 1⟩, none⟩]) := by
    cbv
  obtain ⟨index, hindex, hget⟩ := Option.map_eq_some_iff.mp hanswer
  exact ⟨hsame, (index_eq_of_sameButQueries hsame {}).1, index, index_of_toOption hindex, hget⟩

end SourceMap

end SourceMapIndex
