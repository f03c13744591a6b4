import SourceMapIndex.Proofs.Index.Grouping
import SourceMapIndex.Proofs.Index.Picture

/-!
# The text of an index

The text of an index is a picture of its entries. The objects in it are made by one walk
over the entries of a shelf, where an entry joins the line ahead of it if it belongs there;
the lines that come of it are those that the range queries cut out. Two indexes have the same
text exactly if they have the same entries.

## Main definitions

- `Index.picture` — the sources that have entries, with what their lines are asked for
- `Picture.Shows` — a picture shows the entries of an index, with keys in order

## Main results

- `Shelf.lines_eq` — the lines of a shelf by its range queries
- `Index.entries_picture` — a picture of an index shows its entries
- `Index.toJson_eq_picture` — the objects of an index are those of its picture
- `Index.text_shows_entries` — the text of an index that was filled by filing
-/

namespace SourceMapIndex

namespace Shelf

/-- The columns that some entries have in a line. -/
def columnsAt (entries : List (Location × List Occurrence)) (line : UInt32) :
    List (UInt32 × List Occurrence) :=
  (entries.filter fun entry => entry.1.line = line).map fun entry => (entry.1.column, entry.2)

section AddToLines

variable {entry : Location × List Occurrence} {rest : List (Location × List Occurrence)}

theorem columnsAt_cons_self :
    columnsAt (entry :: rest) entry.1.line =
      (entry.1.column, entry.2) :: columnsAt rest entry.1.line := by
  simp [columnsAt]

theorem columnsAt_cons_of_ne {line : UInt32} (h : line ≠ entry.1.line) :
    columnsAt (entry :: rest) line = columnsAt rest line := by
  rw [columnsAt, List.filter_cons_of_neg (by simpa using Ne.symm h), columnsAt]

theorem columnsAt_eq_nil {entries : List (Location × List Occurrence)} {line : UInt32}
    (h : line ∉ entries.map fun entry => entry.1.line) : columnsAt entries line = [] := by
  simp only [columnsAt, List.map_eq_nil_iff, List.filter_eq_nil_iff, decide_eq_true_eq]
  rintro entry hentry rfl
  exact h (List.mem_map_of_mem hentry)

/-- A line that comes before the first of some ascending lines is not one of them. -/
theorem not_mem_of_lt_head {line first : UInt32} {lines : List UInt32}
    (h : (first :: lines).Pairwise (· ≤ ·)) (hlt : line < first) : line ∉ first :: lines := by
  intro hline
  rcases List.mem_cons.mp hline with rfl | hlater
  · exact UInt32.lt_irrefl _ hlt
  · exact UInt32.not_lt.mpr ((List.pairwise_cons.mp h).1 line hlater) hlt

/-- Entries whose lines never go back are put together line by line. -/
theorem foldr_addToLines {entries : List (Location × List Occurrence)}
    (h : (entries.map fun entry => entry.1.line).Pairwise (· ≤ ·)) :
    entries.foldr addToLines [] =
      (entries.map fun entry => entry.1.line).eraseDups.map fun line =>
        (line, columnsAt entries line) := by
  induction entries with
  | nil => rfl
  | cons entry rest ih =>
    rw [List.map_cons, List.pairwise_cons] at h
    obtain ⟨hle, hrest⟩ := h
    -- the other lines are as they were before the entry came in front of them
    have hothers {lines : List UInt32} (hne : ∀ line ∈ lines, line ≠ entry.1.line) :
        lines.map (fun line => (line, columnsAt (entry :: rest) line)) =
          lines.map fun line => (line, columnsAt rest line) := by
      apply List.map_congr_left
      intro line hline
      rw [columnsAt_cons_of_ne (hne line hline)]
    rw [List.foldr_cons, ih hrest, List.map_cons, List.eraseDups_cons, List.map_cons,
      columnsAt_cons_self, hothers (by simp)]
    cases rest with
    | nil => rfl
    | cons next later =>
      by_cases heq : next.1.line = entry.1.line
      · -- the entry joins the line of the next one
        rw [List.map_cons, List.eraseDups_cons, List.map_cons]
        simp [addToLines, heq]
      · -- the entry is on a line of its own, before all others
        have hlt : entry.1.line < next.1.line :=
          UInt32.lt_of_le_of_ne (hle next.1.line (by simp)) (Ne.symm heq)
        have hnew : entry.1.line ∉ (next :: later).map fun entry => entry.1.line :=
          not_mem_of_lt_head hrest hlt
        rw [Distinct.filter_not_beq hnew, columnsAt_eq_nil hnew, List.map_cons, List.eraseDups_cons, List.map_cons,
          addToLines, if_neg heq]

end AddToLines

/-- The lines of a shelf are those of its entries, with the columns that a range query
gives. -/
theorem lines_eq (shelf : Shelf) :
    shelf.lines =
      (shelf.entries.map fun entry => entry.1.line).eraseDups.map fun line =>
        (line, shelf.entriesAt line) := by
  rw [lines, foldr_addToLines (pairwise_line_le shelf.pairwise_entries)]
  apply List.map_congr_left
  intro line _
  rw [shelf.entriesAt_eq, columnsAt]

end Shelf

/-- A picture shows the entries of an index, all of them and nothing else. -/
structure Picture.Shows (picture : Picture) (index : Index) : Prop where
  /-- The sources are those of the table that have entries, in the order of the table. -/
  sources : picture.map Prod.fst =
    index.sourceTable.filter fun source => index.entriesOf source ≠ []
  lines : ∀ source ∈ picture, (source.2.map Prod.fst).Pairwise (· < ·)
  columns : ∀ source ∈ picture, ∀ line ∈ source.2, (line.2.map Prod.fst).Pairwise (· < ·)
  occurrences : ∀ source ∈ picture, ∀ line ∈ source.2, ∀ column ∈ line.2, column.2 ≠ []
  /-- No source and no line is there without anything in it. -/
  filled : ∀ source ∈ picture, source.2 ≠ [] ∧ ∀ line ∈ source.2, line.2 ≠ []
  /-- Without its nesting the picture is the list of all entries. -/
  entries : picture.entries = index.entries

/-- Sources of a table without repetitions and ascending lines and columns are distinct keys. -/
theorem Picture.Shows.distinctKeys {picture : Picture} {index : Index} (h : picture.Shows index)
    (htable : index.sourceTable.Nodup) : picture.toJson.DistinctKeys := by
  have hdistinct {words : List UInt32} (hlt : words.Pairwise (· < ·)) : words.Nodup :=
    hlt.imp UInt32.ne_of_lt
  apply Picture.distinctKeys_toJson
  · rw [h.sources]
    exact htable.filter _
  · exact fun source hsource => hdistinct (h.lines source hsource)
  · exact fun source hsource line hline => hdistinct (h.columns source hsource line hline)

namespace Index

/-- The sources that have entries, with their lines and what these are asked for. -/
def picture (index : Index) : Picture :=
  index.sources.map fun source =>
    (source, (index.linesOf source).map fun line => (line, index.entriesAt source line))

variable {index : Index}

theorem map_fst_picture (index : Index) : index.picture.map Prod.fst = index.sources := by
  simp [picture, Function.comp_def]

theorem pairwise_entriesAt (index : Index) (source : String) (line : UInt32) :
    ((index.entriesAt source line).map Prod.fst).Pairwise (· < ·) := by
  rw [entriesAt_eq, List.map_map, List.pairwise_map, List.pairwise_filter]
  apply (index.pairwise_entriesOf source).imp
  rintro a b hlt ha hb
  rw [decide_eq_true_eq] at ha hb
  rcases hlt with hline | ⟨-, hcolumn⟩
  · exact absurd hline (by rw [ha, hb]; exact UInt32.lt_irrefl _)
  · exact hcolumn

theorem entriesAt_ne_nil {source : String} {line : UInt32} (h : line ∈ index.linesOf source) :
    index.entriesAt source line ≠ [] := by
  rw [linesOf, List.mem_eraseDups] at h
  obtain ⟨entry, hentry, rfl⟩ := List.mem_map.mp h
  rw [entriesAt_eq, ne_eq, List.map_eq_nil_iff, List.filter_eq_nil_iff]
  exact fun hnone => hnone entry hentry (by simp)

theorem linesOf_ne_nil {source : String} (h : index.entriesOf source ≠ []) :
    index.linesOf source ≠ [] := by
  obtain ⟨entry, hentry⟩ := List.exists_mem_of_ne_nil _ h
  apply List.ne_nil_of_mem (a := entry.1.line)
  rw [linesOf, List.mem_eraseDups]
  exact List.mem_map_of_mem hentry

section Table

variable (htable : index.sourceTable.Nodup)

include htable

/-- The objects of an index are those of its picture. -/
theorem toJson_eq_picture : index.toJson = index.picture.toJson := by
  rw [toJson, Picture.toJson, picture, sources, List.map_map, List.map_map]
  congr 1
  apply List.map_congr_left
  intro shelf hshelf
  have hmem : shelf ∈ index.shelves := (List.mem_filter.mp hshelf).1
  have hlines : (index.linesOf shelf.source).map
      (fun line => (line, index.entriesAt shelf.source line)) = shelf.lines := by
    rw [Shelf.lines_eq, linesOf, entriesOf_of_mem htable hmem]
    simp only [entriesAt, shelf?_of_mem htable hmem]
  simp only [Function.comp_apply, hlines]
  rfl

omit htable in
theorem entriesOf_picture (source : String) :
    Picture.entriesOf source
        ((index.linesOf source).map fun line => (line, index.entriesAt source line)) =
      (index.entriesOf source).map fun entry => ⟨source, entry.1, entry.2⟩ := by
  rw [entriesOf_eq_flatMap, Picture.entriesOf, List.flatMap_map, List.map_flatMap]
  simp only [List.map_map]
  rfl

theorem entries_picture : index.picture.entries = index.entries := by
  rw [Picture.entries, picture, List.flatMap_map, entries_eq_flatMap htable,
    sources_eq_filter htable]
  simp only [entriesOf_picture]
  -- the sources that are left out of the table have no entries
  induction index.sourceTable with
  | nil => rfl
  | cons source rest ih =>
    by_cases hnil : index.entriesOf source = []
    · rw [List.filter_cons_of_neg (by simpa using hnil), ih, List.flatMap_cons, hnil]
      rfl
    · rw [List.filter_cons_of_pos (by simpa using hnil), List.flatMap_cons, List.flatMap_cons, ih]

/-- A picture of an index shows it, if no location is kept without occurrences. -/
theorem shows_picture (hfilled : ∀ entry ∈ index.entries, entry.occurrences ≠ []) :
    index.picture.Shows index := by
  refine {
    sources := index.map_fst_picture.trans (sources_eq_filter htable)
    lines := ?_
    columns := ?_
    occurrences := ?_
    filled := ?_
    entries := entries_picture htable }
  · intro _ hmember
    obtain ⟨source, -, rfl⟩ := List.mem_map.mp hmember
    simpa [Function.comp_def] using index.pairwise_linesOf source
  · intro _ hmember _ hin
    obtain ⟨source, -, rfl⟩ := List.mem_map.mp hmember
    obtain ⟨line, -, rfl⟩ := List.mem_map.mp hin
    exact index.pairwise_entriesAt source line
  · intro source hsource line hline column hcolumn
    refine hfilled ⟨source.1, ⟨line.1, column.1⟩, column.2⟩ ?_
    rw [← entries_picture htable]
    exact List.mem_flatMap.mpr ⟨source, hsource,
      List.mem_flatMap.mpr ⟨line, hline, List.mem_map.mpr ⟨column, hcolumn, rfl⟩⟩⟩
  · intro _ hmember
    obtain ⟨source, hsource, rfl⟩ := List.mem_map.mp hmember
    rw [sources_eq_filter htable, List.mem_filter, decide_eq_true_eq] at hsource
    refine ⟨by simpa using linesOf_ne_nil hsource.2, ?_⟩
    intro _ hin
    obtain ⟨line, hline, rfl⟩ := List.mem_map.mp hin
    exact entriesAt_ne_nil hline

/-- The entries of a source are its part of all entries. -/
theorem entriesOf_eq_filter (source : String) :
    index.entriesOf source =
      (index.entries.filter fun entry => entry.source = source).map fun entry =>
        (entry.origin, entry.occurrences) := by
  refine Distinct.eq_of_ascending (fun _ _ => Location.lt_asymm)
    (index.pairwise_entriesOf source) ?_ ?_
  · rw [List.pairwise_map, List.pairwise_filter]
    apply (pairwise_entries htable).imp
    rintro a b hlt ha hb
    rw [decide_eq_true_eq] at ha hb
    rcases hlt with hplace | ⟨-, horigin⟩
    · exact absurd hplace (by rw [ha, hb]; exact Nat.lt_irrefl _)
    · exact horigin
  · rintro ⟨origin, occurrences⟩
    rw [← get?_eq_some_iff_mem_entriesOf, get?_eq_some_iff htable]
    simp only [List.mem_map, List.mem_filter, decide_eq_true_eq, Prod.mk.injEq]
    constructor
    · exact fun hentry => ⟨_, ⟨hentry, rfl⟩, rfl, rfl⟩
    · rintro ⟨_, ⟨hentry, rfl⟩, rfl, rfl⟩
      exact hentry

/-- Equal entries make equal pictures, whatever the source tables are. -/
theorem picture_eq_of_entries_eq {other : Index} (hother : other.sourceTable.Nodup)
    (h : index.entries = other.entries) : index.picture = other.picture := by
  have hsources : index.sources = other.sources := by
    rw [sources_eq_eraseDups htable, sources_eq_eraseDups hother, h]
  have hof (source : String) : index.entriesOf source = other.entriesOf source := by
    rw [entriesOf_eq_filter htable, entriesOf_eq_filter hother, h]
  simp only [picture, hsources, linesOf, entriesAt_eq, hof]

end Table

/-- The compact text of an index that was filled by filing is read, as it is and with no two
members of one key in any object, as a picture that shows all entries of the index. It tells
these entries from any others: another such index has the same text exactly if it has the
same entries. -/
theorem text_shows_entries (sources : List String) (mappings : List Resolved) (lines : UInt32) :
    let index := ofFiled sources mappings lines
    (∃ value picture, Json.parse index.toJson.compact = .ok value ∧ value.DistinctKeys ∧
      Picture.ofJson? value = some picture ∧ picture.Shows index) ∧
    ∀ sources' mappings' lines',
      index.toJson.compact = (ofFiled sources' mappings' lines').toJson.compact ↔
        index.entries = (ofFiled sources' mappings' lines').entries := by
  intro index
  have htable := nodup_sourceTable_ofFiled sources mappings lines
  have hjson : index.toJson = index.picture.toJson := toJson_eq_picture htable
  have hshows : index.picture.Shows index :=
    shows_picture htable fun _ hentry => (occurrences_of_mem_ofFiled hentry).2
  rw [hjson]
  constructor
  · exact ⟨_, index.picture, Picture.parse_toJson _, hshows.distinctKeys htable,
      Picture.ofJson?_toJson _, hshows⟩
  · intro sources' mappings' lines'
    have hother := nodup_sourceTable_ofFiled sources' mappings' lines'
    rw [toJson_eq_picture hother]
    constructor
    · intro htext
      rw [← entries_picture htable, ← entries_picture hother, Picture.compact_injective htext]
    · intro hentries
      rw [picture_eq_of_entries_eq htable hother hentries]

end Index

end SourceMapIndex
