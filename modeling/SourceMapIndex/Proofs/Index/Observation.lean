import SourceMapIndex.Proofs.Index.Agreement
import SourceMapIndex.Proofs.Index.Text

/-!
# What can be observed of an index

An index holds more than its answers show: its entries stand under the places of their
sources, and the occurrences are counted apart from them. In an index that was filled by
filing none of this is free. The count is that of the occurrences in the entries, and what
stands under a place is the part of the entries that belongs to the source there. Such an
index is therefore known when its source table, its entries and its number of lines are.

## Main definitions

- `Index.byPlace` — all entries, each under the place of its source
- `Index.SameContents` — two indexes with the same entries
- `Index.Indistinguishable` — two indexes that nothing tells apart

## Main results

- `Index.entries_eq_of_get?` — answers to locations, and tables, that make equal entries
- `Index.sameContents_of_entries_eq` — what hangs on the entries alone
- `Index.indistinguishable_iff` — what has to be compared to tell two indexes apart
-/

namespace SourceMapIndex

namespace Index

/-- All entries, each under its location and the place of its source in the table. -/
def byPlace (index : Index) : List ((Nat × Location) × List Occurrence) :=
  (index.shelves.map Shelf.entries).zipIdx.flatMap fun (entries, place) =>
    entries.map fun (origin, occurrences) => ((place, origin), occurrences)

/-- Two indexes have the same entries, and all that is asked of the entries has one answer. -/
structure SameContents (a b : Index) : Prop where
  entries : a.entries = b.entries
  sources : a.sources = b.sources
  sameUnder : ∀ source, a.SameUnder b source source
  size : a.size = b.size
  isEmpty : a.isEmpty = b.isEmpty
  mappingCount : a.mappingCount = b.mappingCount
  text : a.toJson.compact = b.toJson.compact

/-- Nothing that two indexes answer or hold tells them apart. -/
structure Indistinguishable (a b : Index) : Prop extends SameContents a b where
  beq : (a == b) = true
  sourceTable : a.sourceTable = b.sourceTable
  byPlace : a.byPlace = b.byPlace
  generatedLines : a.generatedLines = b.generatedLines

variable {index a b : Index}

/-- The count of an index is that of the occurrences in its entries. -/
theorem IsFiled.mappingCount_eq (h : index.IsFiled) :
    index.mappingCount = (index.entries.flatMap Entry.occurrences).length := by
  obtain ⟨sources, mappings, lines, rfl⟩ := h
  rw [mappingCount_ofFiled, perm_occurrences_ofFiled.length_eq, List.length_map]

/-- The views of one source hang on what its locations are answered with. -/
theorem sameUnder_of_get? {source other : String}
    (h : ∀ origin, a.get? source origin = b.get? other origin) :
    a.SameUnder b source other := by
  apply sameUnder_of_entriesOf
  refine Distinct.eq_of_ascending (fun _ _ => Location.lt_asymm)
    (a.pairwise_entriesOf source) (b.pairwise_entriesOf other) ?_
  rintro ⟨origin, occurrences⟩
  rw [← get?_eq_some_iff_mem_entriesOf, ← get?_eq_some_iff_mem_entriesOf, h]

/-- The shelves hold the entries of the sources of the table. -/
theorem map_entries_shelves (htable : index.sourceTable.Nodup) :
    index.shelves.map Shelf.entries = index.sourceTable.map index.entriesOf := by
  rw [sourceTable, List.map_map]
  apply List.map_congr_left
  intro shelf hshelf
  exact (entriesOf_of_mem htable hshelf).symm

section Tables

variable (ha : a.sourceTable.Nodup) (hb : b.sourceTable.Nodup)

include ha hb

/-- If every location is answered alike and one table begins with the other, the entries are
the same: the sources that only one of the tables has are not answered at all. -/
theorem entries_eq_of_get? (htable : a.sourceTable <+: b.sourceTable)
    (h : ∀ source origin, a.get? source origin = b.get? source origin) :
    a.entries = b.entries := by
  obtain ⟨others, hothers⟩ := htable
  have hof (source : String) : a.entriesOf source = b.entriesOf source :=
    (sameUnder_of_get? (h source)).entriesOf
  have hdisjoint : a.sourceTable.Disjoint others := by
    rw [← hothers] at hb
    exact List.disjoint_of_nodup_append hb
  have hempty : others.flatMap (fun source =>
      (b.entriesOf source).map fun (origin, occurrences) =>
        (⟨source, origin, occurrences⟩ : Entry)) = [] := by
    rw [List.flatMap_eq_nil_iff]
    intro source hsource
    have houtside : source ∉ a.sourceTable := fun hmem => hdisjoint hmem hsource
    rw [← hof, (views_of_not_mem houtside).2.1, List.map_nil]
  rw [entries_eq_flatMap hb, ← hothers, List.flatMap_append, hempty, List.append_nil,
    entries_eq_flatMap ha]
  simp only [hof]

theorem entriesOf_eq_of_entries_eq (h : a.entries = b.entries) (source : String) :
    a.entriesOf source = b.entriesOf source := by
  rw [entriesOf_eq_filter ha, entriesOf_eq_filter hb, h]

/-- With equal tables, equal entries stand under equal places. -/
theorem map_entries_eq_of_entries_eq (htable : a.sourceTable = b.sourceTable)
    (h : a.entries = b.entries) :
    a.shelves.map Shelf.entries = b.shelves.map Shelf.entries := by
  rw [map_entries_shelves ha, map_entries_shelves hb, htable]
  exact List.map_congr_left fun source _ => entriesOf_eq_of_entries_eq ha hb h source

end Tables

section Filed

variable (ha : a.IsFiled) (hb : b.IsFiled)

include ha hb

/-- All that is asked of the entries hangs on them alone, the count that is kept apart as well. -/
theorem sameContents_of_entries_eq (h : a.entries = b.entries) : a.SameContents b := by
  have hatable := ha.nodup_sourceTable
  have hbtable := hb.nodup_sourceTable
  have hpicture := picture_eq_of_entries_eq hatable hbtable h
  have hempty : a.isEmpty = b.isEmpty := by
    rw [Bool.eq_iff_iff, isEmpty_iff, isEmpty_iff, h]
  exact {
    entries := h
    sources := by rw [sources_eq_eraseDups hatable, sources_eq_eraseDups hbtable, h]
    sameUnder := fun source =>
      sameUnder_of_entriesOf (entriesOf_eq_of_entries_eq hatable hbtable h source)
    size := by rw [← length_entries, ← length_entries, h]
    isEmpty := hempty
    mappingCount := by rw [ha.mappingCount_eq, hb.mappingCount_eq, h]
    text := by rw [toJson_eq_picture hatable, toJson_eq_picture hbtable, hpicture] }

/-- Behind its table, its entries and its lines such an index holds nothing more. -/
theorem indistinguishable_of_entries_eq (htable : a.sourceTable = b.sourceTable)
    (hentries : a.entries = b.entries) (hlines : a.generatedLines = b.generatedLines) :
    a.Indistinguishable b := by
  have hcontents := sameContents_of_entries_eq ha hb hentries
  have hshelves := map_entries_eq_of_entries_eq ha.nodup_sourceTable hb.nodup_sourceTable htable
    hentries
  have hmembers : sameMembers a.sourceTable b.sourceTable = true := by
    simp [sameMembers, htable]
  exact {
    hcontents with
    beq := beq_iff.mpr ⟨hmembers, hshelves, hlines, hcontents.mappingCount⟩
    sourceTable := htable
    byPlace := by rw [byPlace, byPlace, hshelves]
    generatedLines := hlines }

end Filed

/-- Two indexes that were filled by filing cannot be told apart, not even by what they do not
show, if they have the same source table, the same entries and the same number of lines. -/
theorem indistinguishable_iff (ha : a.IsFiled) (hb : b.IsFiled) :
    a.Indistinguishable b ↔
      a.sourceTable = b.sourceTable ∧ a.entries = b.entries ∧
        a.generatedLines = b.generatedLines := by
  constructor
  · intro h
    exact ⟨h.sourceTable, h.entries, h.generatedLines⟩
  · rintro ⟨htable, hentries, hlines⟩
    exact indistinguishable_of_entries_eq ha hb htable hentries hlines

/-- Two ways to one index: the tables differ in queries and in a repetition, and the mappings,
one of them of a source outside the tables, come in another order. -/
theorem indistinguishable_of_two_ways :
    let first : Resolved := ⟨"a.js", ⟨3, 4⟩, ⟨0, 2⟩, some "x"⟩
    let second : Resolved := ⟨"b.js", ⟨0, 0⟩, ⟨0, 7⟩, none⟩
    let a := ofFiled ["a.js?v=1"] [first, second] 1
    let b := ofFiled ["a.js", "a.js?v=2"] [second, first] 1
    a.IsFiled ∧ b.IsFiled ∧ a.Indistinguishable b := by
  intro first second a b
  have htable : a.sourceTable = b.sourceTable := by cbv
  have hentries : a.entries = b.entries := by cbv
  have ha : a.IsFiled := isFiled_ofFiled _ _ _
  have hb : b.IsFiled := isFiled_ofFiled _ _ _
  exact ⟨ha, hb, (indistinguishable_iff ha hb).mpr ⟨htable, hentries, rfl⟩⟩

end Index

end SourceMapIndex
