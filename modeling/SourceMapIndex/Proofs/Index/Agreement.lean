import SourceMapIndex.Proofs.Index.Grouping

/-!
# Agreement of views, and of indexes

The views of an index that was filled by filing agree with each other. Two indexes that are
the same agree place by place: what one holds under its first source, the other holds under
its own first source, and so on. They answer alike only if the sources at equal places are
the same as well, since the comparison looks at the source tables without their order.

## Main definitions

- `Index.ViewsAgree` — the views of an index agree with each other
- `Index.SameUnder` — two indexes hold the same under two sources
- `Index.AnswersAlike` — two indexes answer everything alike

## Main results

- `Index.viewsAgree_ofFiled` — filing keeps the views in agreement
- `Index.sameUnder_of_beq` — indexes that are the same agree place by place
- `Index.answersAlike_of_beq` — with equal source tables they answer alike
-/

namespace SourceMapIndex

namespace Index

/-- The views of an index tell of the same entries. -/
structure ViewsAgree (index : Index) : Prop where
  table : index.sourceTable.Nodup
  /-- All entries ascend strictly: by the place of the source, then by line, then by column. -/
  ascending : index.entries.Pairwise index.Precedes
  keys : (index.entries.map Entry.key).Nodup
  /-- All entries are those of the sources of the table, one source after the other. -/
  bySource : index.entries =
    index.sourceTable.flatMap fun source =>
      (index.entriesOf source).map fun (origin, occurrences) => ⟨source, origin, occurrences⟩
  lines : ∀ source, (index.linesOf source).Pairwise (· < ·)
  /-- The entries of a source are those of its lines, one line after the other. -/
  byLine : ∀ source, index.entriesOf source =
    (index.linesOf source).flatMap fun line =>
      (index.entriesAt source line).map fun (column, occurrences) =>
        (⟨line, column⟩, occurrences)
  /-- The entries of any line at all are the part of those of its source that is on it. -/
  line : ∀ source line, index.entriesAt source line =
    ((index.entriesOf source).filter fun entry => entry.1.line = line).map fun entry =>
      (entry.1.column, entry.2)
  get? : ∀ source origin occurrences, index.get? source origin = some occurrences ↔
    ⟨source, origin, occurrences⟩ ∈ index.entries
  sourcesOfTable : index.sources =
    index.sourceTable.filter fun source => index.entriesOf source ≠ []
  sourcesOfEntries : index.sources = (index.entries.map Entry.source).eraseDups
  outside : ∀ source, source ∉ index.sourceTable →
    (∀ origin, index.get? source origin = none) ∧ index.entriesOf source = [] ∧
      ∀ line, index.entriesAt source line = []

/-- Whatever is filed in an index, behind whatever source table, its views agree. -/
theorem viewsAgree_ofFiled (sources : List String) (mappings : List Resolved) (lines : UInt32) :
    (ofFiled sources mappings lines).ViewsAgree := by
  have htable := nodup_sourceTable_ofFiled sources mappings lines
  exact {
    table := htable
    ascending := pairwise_entries htable
    keys := nodup_keys htable
    bySource := entries_eq_flatMap htable
    lines := pairwise_linesOf _
    byLine := entriesOf_eq_flatMap _
    line := entriesAt_eq _
    get? := fun _ _ _ => get?_eq_some_iff htable
    sourcesOfTable := sources_eq_filter htable
    sourcesOfEntries := sources_eq_eraseDups htable
    outside := fun _ => views_of_not_mem }

/-- One index holds under a source what another one holds under a source of its own. -/
structure SameUnder (a b : Index) (source other : String) : Prop where
  get? : ∀ origin, a.get? source origin = b.get? other origin
  entriesOf : a.entriesOf source = b.entriesOf other
  entriesAt : ∀ line, a.entriesAt source line = b.entriesAt other line

/-- Two indexes give the same answers to everything that can be asked of them. -/
structure AnswersAlike (a b : Index) : Prop where
  sourceTable : a.sourceTable = b.sourceTable
  sources : a.sources = b.sources
  entries : a.entries = b.entries
  sameUnder : ∀ source, a.SameUnder b source source

variable {a b : Index}

/-- The views of one source hang on its entries alone. -/
theorem sameUnder_of_entriesOf {source other : String}
    (h : a.entriesOf source = b.entriesOf other) : a.SameUnder b source other where
  get? origin := by
    ext occurrences
    rw [get?_eq_some_iff_mem_entriesOf, get?_eq_some_iff_mem_entriesOf, h]
  entriesOf := h
  entriesAt line := by rw [entriesAt_eq, entriesAt_eq, h]

theorem answersAlike_of_entriesOf (ha : a.sourceTable.Nodup) (hb : b.sourceTable.Nodup)
    (htable : a.sourceTable = b.sourceTable)
    (h : ∀ source, a.entriesOf source = b.entriesOf source) : a.AnswersAlike b where
  sourceTable := htable
  sources := by simp only [sources_eq_filter ha, sources_eq_filter hb, htable, h]
  entries := by simp only [entries_eq_flatMap ha, entries_eq_flatMap hb, htable, h]
  sameUnder source := sameUnder_of_entriesOf (h source)

theorem beq_iff : (a == b) = true ↔
    sameMembers a.sourceTable b.sourceTable = true ∧
      a.shelves.map Shelf.entries = b.shelves.map Shelf.entries ∧
        a.generatedLines = b.generatedLines ∧ a.mappingCount = b.mappingCount := by
  change (sameMembers a.sourceTable b.sourceTable
      && a.shelves.map Shelf.entries == b.shelves.map Shelf.entries
      && a.generatedLines == b.generatedLines && a.mappingCount == b.mappingCount) = true ↔ _
  simp only [Bool.and_eq_true, beq_iff_eq, and_assoc]

theorem perm_of_sameMembers {table other : List String} (h : table.Nodup)
    (hmembers : sameMembers table other = true) : table.Perm other := by
  simp only [sameMembers, Bool.and_eq_true, beq_iff_eq, List.all_eq_true,
    List.contains_iff_mem] at hmembers
  exact (List.subperm_of_subset h hmembers.2).perm_of_length_le (Nat.le_of_eq hmembers.1.symm)

theorem getElem?_map_entries (ha : a.sourceTable.Nodup) {i : Nat} {source : String}
    (h : a.sourceTable[i]? = some source) :
    (a.shelves.map Shelf.entries)[i]? = some (a.entriesOf source) := by
  rw [sourceTable, List.getElem?_map, Option.map_eq_some_iff] at h
  obtain ⟨shelf, hshelf, rfl⟩ := h
  rw [List.getElem?_map, hshelf, entriesOf_of_mem ha (List.mem_of_getElem? hshelf)]
  rfl

section Equal

variable (ha : a.sourceTable.Nodup) (hb : b.sourceTable.Nodup) (h : (a == b) = true)

include ha hb h

/-- Indexes that are the same hold the same under the sources at equal places. -/
theorem sameUnder_of_beq {i : Nat} {source other : String}
    (hsource : a.sourceTable[i]? = some source) (hother : b.sourceTable[i]? = some other) :
    a.SameUnder b source other := by
  apply sameUnder_of_entriesOf
  have hentries := getElem?_map_entries ha hsource
  rw [(beq_iff.mp h).2.1, getElem?_map_entries hb hother] at hentries
  exact (Option.some.inj hentries).symm

theorem answersAlike_of_beq (htable : a.sourceTable = b.sourceTable) : a.AnswersAlike b := by
  apply answersAlike_of_entriesOf ha hb htable
  intro source
  by_cases hsource : source ∈ a.sourceTable
  · obtain ⟨i, hi⟩ := List.getElem?_of_mem hsource
    exact (sameUnder_of_beq ha hb h hi (htable ▸ hi)).entriesOf
  · rw [(views_of_not_mem hsource).2.1, (views_of_not_mem (htable ▸ hsource)).2.1]

end Equal

end Index

end SourceMapIndex
