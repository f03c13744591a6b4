import SourceMapIndex.Index.Basic
import SourceMapIndex.Proofs.Distinct

/-!
# The views of an index

An index can be asked for one location, for a line, for a source or for everything. The
answers of each kind are cut out of the shelves in a way of their own: a location is looked
up, a line is a range of locations, everything is a walk over all shelves. If no source has
two shelves, all of them tell of the same entries in the same order.

## Main definitions

- `Index.place` — the place of a source in the source table
- `Index.Precedes` — the order of entries: by the place of the source, then by location
- `Index.linesOf` — the lines of a source that have entries

## Main results

- `Index.entries_eq_flatMap` — all entries are those of the sources of the table
- `Index.entriesOf_eq_flatMap` — the entries of a source are those of its lines
- `Index.get?_eq_some_iff` — a location is answered with what is among all entries
- `Index.pairwise_entries` — all entries ascend
- `Index.sources_eq_eraseDups` — the mapped sources are those of the entries
-/

namespace SourceMapIndex

namespace Shelf

variable {shelf : Shelf}

theorem get?_eq_some_iff {origin : Location} {occurrences : List Occurrence} :
    shelf.get? origin = some occurrences ↔ (origin, occurrences) ∈ shelf.entries := by
  simp only [get?, entries, Option.map_eq_some_iff, List.mem_map, Prod.exists, Prod.mk.injEq,
    Std.TreeMap.mem_toList_iff_getElem?_eq_some]
  constructor
  · rintro ⟨filed, hfiled, rfl⟩
    exact ⟨origin, filed, hfiled, rfl, rfl⟩
  · rintro ⟨_, filed, hfiled, rfl, rfl⟩
    exact ⟨filed, hfiled, rfl⟩

theorem pairwise_entries (shelf : Shelf) : shelf.entries.Pairwise fun a b => a.1 < b.1 := by
  rw [entries, List.pairwise_map]
  exact Std.TreeMap.ordered_keys_toList.imp Location.compare_eq_lt_iff.mp

theorem length_entries (shelf : Shelf) : shelf.entries.length = shelf.size := by
  rw [entries, List.length_map, Std.TreeMap.length_toList, size]

theorem isEmpty_iff : shelf.isEmpty = true ↔ shelf.entries = [] := by
  rw [isEmpty, ← Std.TreeMap.isEmpty_toList, List.isEmpty_iff, entries, List.map_eq_nil_iff]

/-- Locations that ascend have lines that never go back. -/
theorem pairwise_line_le {entries : List (Location × List Occurrence)}
    (h : entries.Pairwise fun a b => a.1 < b.1) :
    (entries.map fun entry => entry.1.line).Pairwise (· ≤ ·) := by
  rw [List.pairwise_map]
  apply h.imp
  rintro a b (hline | ⟨hline, -⟩)
  · exact UInt32.le_of_lt hline
  · exact UInt32.le_of_eq hline

/-- The range of a line loses none of its entries, the first and the last column included. -/
theorem entriesAt_eq (shelf : Shelf) (line : UInt32) :
    shelf.entriesAt line =
      (shelf.entries.filter fun entry => entry.1.line = line).map fun entry =>
        (entry.1.column, entry.2) := by
  have hrange (origin : Location) :
      ((origin.compare (Location.lineStart line)).isGE ∧
        (origin.compare (Location.lineEnd line)).isLE) ↔ origin.line = line := by
    rw [Std.OrientedCmp.isGE_iff_isLE, Location.isLE_compare_iff, Location.isLE_compare_iff,
      Location.between_ends_iff]
  rw [entriesAt, Std.TreeMap.toList_rcc Location.compare, entries, List.filter_map, List.map_map]
  simp only [hrange]
  rfl

end Shelf

/-- The location of an entry with its source. -/
def Entry.key (entry : Entry) : String × Location :=
  (entry.source, entry.origin)

namespace Index

variable (index : Index)

/-- The place of a source in the source table. -/
def place (source : String) : Nat :=
  index.sourceTable.idxOf source

/-- An entry stands before another one: its source comes earlier in the table, or it is the
same and its location comes earlier there. -/
def Precedes (a b : Entry) : Prop :=
  index.place a.source < index.place b.source ∨
    index.place a.source = index.place b.source ∧ a.origin < b.origin

/-- The lines of a source that have entries, each once. -/
def linesOf (source : String) : List UInt32 :=
  ((index.entriesOf source).map fun entry => entry.1.line).eraseDups

variable {index}

theorem precedes_iff_lex {a b : Entry} :
    index.Precedes a b ↔ Prod.Lex (· < ·) (· < ·) (index.place a.source, a.origin)
      (index.place b.source, b.origin) := by
  rw [Precedes, Prod.lex_def]

theorem Precedes.asymm {a b : Entry} (h : index.Precedes a b) : ¬index.Precedes b a := by
  rw [precedes_iff_lex] at h ⊢
  exact Location.lex_asymm h

theorem length_entries (index : Index) : index.entries.length = index.size := by
  simp only [entries, size]
  induction index.shelves with
  | nil => rfl
  | cons shelf rest ih =>
    rw [List.flatMap_cons, List.length_append, List.length_map, Shelf.length_entries, ih,
      List.foldr_cons]

theorem isEmpty_iff : index.isEmpty = true ↔ index.entries = [] := by
  simp only [isEmpty, List.all_eq_true, Shelf.isEmpty_iff, entries, List.flatMap_eq_nil_iff,
    List.map_eq_nil_iff]

theorem shelf?_eq_none_iff {source : String} :
    index.shelf? source = none ↔ source ∉ index.sourceTable := by
  simp only [shelf?, List.find?_eq_none, sourceTable, List.mem_map, beq_iff_eq, not_exists, not_and]

/-- A source outside the table has no entries in any view. -/
theorem views_of_not_mem {source : String} (h : source ∉ index.sourceTable) :
    (∀ origin, index.get? source origin = none) ∧ index.entriesOf source = [] ∧
      ∀ line, index.entriesAt source line = [] := by
  have hshelf := shelf?_eq_none_iff.mpr h
  simp [get?, entriesOf, entriesAt, hshelf]

theorem get?_eq_some_iff_mem_entriesOf {source : String} {origin : Location}
    {occurrences : List Occurrence} :
    index.get? source origin = some occurrences ↔
      (origin, occurrences) ∈ index.entriesOf source := by
  unfold get? entriesOf
  cases index.shelf? source with
  | none => simp
  | some shelf => exact Shelf.get?_eq_some_iff

theorem entriesAt_eq (index : Index) (source : String) (line : UInt32) :
    index.entriesAt source line =
      ((index.entriesOf source).filter fun entry => entry.1.line = line).map fun entry =>
        (entry.1.column, entry.2) := by
  unfold entriesAt entriesOf
  cases index.shelf? source with
  | none => rfl
  | some shelf => exact shelf.entriesAt_eq line

theorem pairwise_entriesOf (index : Index) (source : String) :
    (index.entriesOf source).Pairwise fun a b => a.1 < b.1 := by
  unfold entriesOf
  cases index.shelf? source with
  | none => exact List.Pairwise.nil
  | some shelf => exact shelf.pairwise_entries

theorem pairwise_linesOf (index : Index) (source : String) :
    (index.linesOf source).Pairwise (· < ·) := by
  have hlines := Shelf.pairwise_line_le (index.pairwise_entriesOf source)
  have hle := hlines.sublist (Distinct.eraseDups_sublist _)
  exact (hle.and (Distinct.nodup_eraseDups _)).imp fun h => UInt32.lt_of_le_of_ne h.1 h.2

/-- The entries of a source are those of its lines, one line after the other. -/
theorem entriesOf_eq_flatMap (index : Index) (source : String) :
    index.entriesOf source =
      (index.linesOf source).flatMap fun line =>
        (index.entriesAt source line).map fun (column, occurrences) =>
          (⟨line, column⟩, occurrences) := by
  -- with their line put back, the entries of a line are a part of those of the source
  have hpart (line : UInt32) :
      ((index.entriesAt source line).map fun (column, occurrences) =>
          ((⟨line, column⟩ : Location), occurrences)) =
        (index.entriesOf source).filter fun entry => entry.1.line = line := by
    rw [entriesAt_eq, List.map_map]
    refine (List.map_congr_left ?_).trans (List.map_id _)
    rintro ⟨origin, occurrences⟩ hentry
    have hline : origin.line = line := by simpa using (List.mem_filter.mp hentry).2
    simp [← hline]
  simp only [hpart]
  have hordered := index.pairwise_entriesOf source
  refine Distinct.eq_of_ascending (fun _ _ => Location.lt_asymm) hordered ?_ ?_
  · rw [List.pairwise_flatMap]
    refine ⟨fun line _ => hordered.filter _, (index.pairwise_linesOf source).imp ?_⟩
    intro line next hlt a ha b hb
    rw [List.mem_filter, decide_eq_true_eq] at ha hb
    exact Or.inl (by rw [ha.2, hb.2]; exact hlt)
  · intro entry
    simp only [List.mem_flatMap, List.mem_filter, decide_eq_true_eq, linesOf, List.mem_eraseDups,
      List.mem_map]
    constructor
    · exact fun hentry => ⟨entry.1.line, ⟨entry, hentry, rfl⟩, hentry, rfl⟩
    · rintro ⟨_, _, hentry, _⟩
      exact hentry

section Table

variable (htable : index.sourceTable.Nodup)

include htable

theorem shelf?_of_mem {shelf : Shelf} (h : shelf ∈ index.shelves) :
    index.shelf? shelf.source = some shelf := by
  cases hfound : index.shelf? shelf.source with
  | none => exact absurd (List.mem_map_of_mem h) (shelf?_eq_none_iff.mp hfound)
  | some found =>
    have hsource : found.source = shelf.source := by simpa using List.find?_some hfound
    have hmem : found ∈ index.shelves := List.mem_of_find?_eq_some hfound
    rw [List.inj_on_of_nodup_map htable hmem h hsource]

theorem entriesOf_of_mem {shelf : Shelf} (h : shelf ∈ index.shelves) :
    index.entriesOf shelf.source = shelf.entries := by
  rw [entriesOf, shelf?_of_mem htable h]

/-- All entries are those of the sources of the table, one source after the other. -/
theorem entries_eq_flatMap :
    index.entries =
      index.sourceTable.flatMap fun source =>
        (index.entriesOf source).map fun (origin, occurrences) =>
          ⟨source, origin, occurrences⟩ := by
  rw [entries, sourceTable, List.flatMap_map]
  apply List.flatMap_congr
  intro shelf hshelf
  rw [entriesOf_of_mem htable hshelf]

theorem pairwise_entries : index.entries.Pairwise index.Precedes := by
  rw [entries_eq_flatMap htable, List.pairwise_flatMap]
  constructor
  · intro source _
    rw [List.pairwise_map]
    exact (index.pairwise_entriesOf source).imp fun h => Or.inr ⟨rfl, h⟩
  · apply (Distinct.pairwise_idxOf_lt htable).imp
    intro source next hlt a ha b hb
    obtain ⟨_, _, rfl⟩ := List.mem_map.mp ha
    obtain ⟨_, _, rfl⟩ := List.mem_map.mp hb
    exact Or.inl hlt

/-- No location of a source has two entries. -/
theorem nodup_keys : (index.entries.map Entry.key).Nodup := by
  rw [List.Nodup, List.pairwise_map]
  apply (pairwise_entries htable).imp
  intro a b h hkey
  -- entries with one key would stand before each other
  obtain ⟨hsource, horigin⟩ := Prod.mk.inj hkey
  have hback : index.Precedes b a := by simpa only [Precedes, hsource, horigin] using h
  exact h.asymm hback

/-- A location of a source is answered with the occurrences that it has among all entries. -/
theorem get?_eq_some_iff {source : String} {origin : Location} {occurrences : List Occurrence} :
    index.get? source origin = some occurrences ↔
      ⟨source, origin, occurrences⟩ ∈ index.entries := by
  rw [get?_eq_some_iff_mem_entriesOf, entries_eq_flatMap htable]
  simp only [List.mem_flatMap, List.mem_map, Prod.exists, Entry.mk.injEq]
  constructor
  · intro hentry
    have hsource : source ∈ index.sourceTable := by
      by_contra houtside
      rw [(views_of_not_mem houtside).2.1] at hentry
      exact List.not_mem_nil hentry
    exact ⟨source, hsource, origin, occurrences, hentry, rfl, rfl, rfl⟩
  · rintro ⟨_, _, _, _, hentry, rfl, rfl, rfl⟩
    exact hentry

theorem sources_eq_filter :
    index.sources = index.sourceTable.filter fun source => index.entriesOf source ≠ [] := by
  rw [sources, sourceTable, List.filter_map]
  congr 1
  apply List.filter_congr
  intro shelf hshelf
  have hempty := shelf.isEmpty_iff
  rw [Function.comp_apply, entriesOf_of_mem htable hshelf]
  cases hcase : shelf.isEmpty <;> simp [hcase] at hempty ⊢ <;> exact hempty

theorem mem_sources_iff {source : String} :
    source ∈ index.sources ↔ ∃ entry ∈ index.entries, entry.source = source := by
  rw [sources_eq_filter htable, entries_eq_flatMap htable]
  simp only [List.mem_filter, decide_eq_true_eq, List.mem_flatMap, List.mem_map]
  constructor
  · rintro ⟨hsource, hentries⟩
    obtain ⟨entry, hentry⟩ := List.exists_mem_of_ne_nil _ hentries
    exact ⟨_, ⟨source, hsource, entry, hentry, rfl⟩, rfl⟩
  · rintro ⟨_, ⟨found, hfound, entry, hentry, rfl⟩, rfl⟩
    exact ⟨hfound, List.ne_nil_of_mem hentry⟩

/-- The sources that have entries are the sources of the entries, each where it first comes. -/
theorem sources_eq_eraseDups : index.sources = (index.entries.map Entry.source).eraseDups := by
  have hplaces : (index.entries.map Entry.source).Pairwise fun a b =>
      index.place a ≤ index.place b := by
    rw [List.pairwise_map]
    apply (pairwise_entries htable).imp
    rintro a b (hlt | ⟨heq, -⟩) <;> omega
  have hmem (source : String) :
      source ∈ index.sources ↔ source ∈ (index.entries.map Entry.source).eraseDups := by
    rw [mem_sources_iff htable, List.mem_eraseDups, List.mem_map]
  have hasymm (a b : String) : index.place a < index.place b → ¬index.place b < index.place a :=
    Nat.lt_asymm
  refine Distinct.eq_of_ascending hasymm ?_ ?_ hmem
  · rw [sources_eq_filter htable]
    exact (Distinct.pairwise_idxOf_lt htable).filter _
  · -- equal places are equal sources, so without repetitions the places go up
    have hle := hplaces.sublist (Distinct.eraseDups_sublist _)
    refine List.Pairwise.imp_of_mem ?_ (hle.and (Distinct.nodup_eraseDups _))
    rintro a b ha - ⟨hab, hne⟩
    have htablea : a ∈ index.sourceTable := by
      rw [← hmem, sources_eq_filter htable] at ha
      exact (List.mem_filter.mp ha).1
    have : index.place a ≠ index.place b := fun heq => hne ((List.idxOf_inj htablea).mp heq)
    omega

end Table

end Index

end SourceMapIndex
