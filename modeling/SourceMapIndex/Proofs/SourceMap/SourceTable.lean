import SourceMapIndex.Proofs.Distinct
import SourceMapIndex.Proofs.Index.Grouping
import SourceMapIndex.Proofs.Index.Views
import SourceMapIndex.Proofs.Mappings.Runs
import SourceMapIndex.Proofs.SourceMap.Meaning

/-!
# Where the source table comes from

A build looks at the sources of a source map twice. The builder gives each a shelf before it
takes any mapping, and every mapping has its source looked up. Both leave the queries out, so
a mapping always finds the shelf of its source, and the source table stays what it was at the
start. There are no queries in it, and so an index has no answer for a source with a query.

## Main definitions

- `Tables.sourceTable` — the sources of a table without queries, each once
- `Index.HasTableOf` — what the source table of an index says about its source map

## Main results

- `Builder.keeps_sourceTable` — no mapping adds a source to the table
- `SourceMap.index_hasTableOf` — every index of a source map has the table of its sources
-/

namespace SourceMapIndex

namespace Source

theorem not_mem_withoutQuery (source : String) : '?' ∉ (withoutQuery source).toList := by
  rw [withoutQuery, String.toList_ofList]
  intro hmark
  simpa using List.mem_takeWhile_imp hmark

end Source

namespace Tables

/-- The sources of a table without their queries, each where it first comes up. -/
def sourceTable (tables : Tables) : List String :=
  (tables.sources.toList.map Source.withoutQuery).eraseDups

variable {tables : Tables}

theorem mem_sourceTable_of_sourceOf? {mapping : Mapping} {source : String}
    (h : tables.sourceOf? mapping = some source) : source ∈ tables.sourceTable := by
  obtain ⟨entry, hentry, rfl⟩ := Option.map_eq_some_iff.mp h
  unfold entry? at hentry
  split at hentry
  · have hmem := Array.mem_of_getElem? hentry
    exact List.mem_eraseDups.mpr (List.mem_map_of_mem hmem.val)
  · cases hentry

theorem not_mem_of_mem_sourceTable {source : String} (h : source ∈ tables.sourceTable) :
    '?' ∉ source.toList := by
  obtain ⟨entry, -, rfl⟩ := List.mem_map.mp (List.mem_eraseDups.mp h)
  exact Source.not_mem_withoutQuery entry

end Tables

namespace Builder

/-- A mapping that is received has its source in the table, so it adds none. -/
theorem keeps_sourceTable (tables : Tables) (lines : UInt32) :
    Decoder.Keeps (receive tables) fun _ builder =>
      (builder.finish lines).sourceTable = tables.sourceTable where
  startLine := fun _ htable => htable
  read := by
    intro progress after builder next line segment text mapping htable _ hreceive
    obtain ⟨resolved, hresolve, rfl⟩ := exists_resolved_of_receive hreceive
    obtain ⟨-, hfinds⟩ := Tables.finds_of_resolve hresolve
    have hmem := Tables.mem_sourceTable_of_sourceOf? hfinds.source
    rw [sourceTable_insert, htable, if_pos hmem]

end Builder

/-- The source table of an index is that of the sources of a source map, whatever its mapping
string says. -/
structure Index.HasTableOf (index : Index) (map : SourceMap) : Prop where
  sourceTable : index.sourceTable = (map.sources.toList.map Source.withoutQuery).eraseDups
  /-- The builder has this table at every point on the way through the mapping string. -/
  building : ∀ before, before <+: Mappings.steps map.mappings → ∀ lines,
    ((Decoder.run (Builder.receive map.tables) before {}
      (Builder.ofSources map.sources.toList)).state.finish lines).sourceTable = index.sourceTable
  noQuery : ∀ source ∈ index.sourceTable, '?' ∉ source.toList
  sources : index.sources.Sublist index.sourceTable
  /-- A source with a query is answered with nothing, also if it is one of the source map's. -/
  unanswered : ∀ source : String, '?' ∈ source.toList →
    (∀ origin, index.get? source origin = none) ∧ index.entriesOf source = [] ∧
      ∀ line, index.entriesAt source line = []

namespace SourceMap

variable {map : SourceMap} {options : Options} {index : Index}

/-- An index is what the builder holds when the mapping string is read to its end. -/
theorem run_of_index (h : map.index options = .ok index) :
    ∃ lines, index =
      ((Decoder.run (Builder.receive map.tables) (Mappings.steps map.mappings) {}
        (Builder.ofSources map.sources.toList)).state.finish lines) := by
  unfold SourceMap.index build at h
  split at h
  · cases h
  · simp only at h
    split at h
    · cases h
    · exact ⟨_, (Except.ok.inj h).symm⟩

theorem sourceTable_run (map : SourceMap) (steps : List Mappings.Step) (lines : UInt32) :
    ((Decoder.run (Builder.receive map.tables) steps {}
      (Builder.ofSources map.sources.toList)).state.finish lines).sourceTable =
        map.tables.sourceTable := by
  -- a run that fails has not changed the builder since the table was known to be kept
  rcases (Builder.keeps_sourceTable map.tables lines).run_cases steps
      (Builder.sourceTable_ofSources lines map.sources.toList) with
    ⟨-, htable⟩ | ⟨_, _, _, _, _, -, htable, -⟩
  · exact htable
  · exact htable

theorem sourceTable_of_index (h : map.index options = .ok index) :
    index.sourceTable = map.tables.sourceTable := by
  obtain ⟨lines, rfl⟩ := run_of_index h
  exact sourceTable_run map _ lines

/-- Every index of a source map has the source table of its sources. The mappings have no
influence on it, and sources with queries are not answered. -/
theorem index_hasTableOf (h : map.index options = .ok index) : index.HasTableOf map := by
  obtain ⟨lines, hindex⟩ := run_of_index h
  have htable : index.sourceTable = map.tables.sourceTable := by
    rw [hindex, sourceTable_run]
  refine {
    sourceTable := htable
    building := fun before _ lines => (sourceTable_run map before lines).trans htable.symm
    noQuery := ?_
    sources := List.filter_sublist.map Shelf.source
    unanswered := ?_ }
  · rw [htable]
    exact fun source => Tables.not_mem_of_mem_sourceTable
  · intro source hquery
    apply Index.views_of_not_mem
    rw [htable]
    exact fun hmem => Tables.not_mem_of_mem_sourceTable hmem hquery

/-- Two of three sources are one, the third is all query. The mappings go to the first two, and
the text of the first is not answered. -/
theorem index_hasTableOf_query :
    let map := ofMappings "AAAA,CCAA" #["a.js?x", "a.js", "?y"] #[]
    ∃ index, map.index = .ok index ∧ index.HasTableOf map ∧ index.sourceTable = ["a.js", ""] ∧
      index.get? "a.js" ⟨0, 0⟩ = some [⟨⟨0, 0⟩, none⟩, ⟨⟨0, 1⟩, none⟩] ∧
        index.get? "a.js?x" ⟨0, 0⟩ = none := by
  intro map
  have hanswer : (map.index.toOption.map fun index =>
      (index.sourceTable, index.get? "a.js" ⟨0, 0⟩)) =
        some (["a.js", ""], some [⟨⟨0, 0⟩, none⟩, ⟨⟨0, 1⟩, none⟩]) := by
    decide +kernel
  obtain ⟨index, hindex, hfound⟩ := Option.map_eq_some_iff.mp hanswer
  obtain ⟨htable, hget⟩ := Prod.mk.inj hfound
  have hhas := index_hasTableOf (index_of_toOption hindex)
  exact ⟨index, index_of_toOption hindex, hhas, htable, hget,
    (hhas.unanswered "a.js?x" (by decide)).1 ⟨0, 0⟩⟩

end SourceMap

end SourceMapIndex
