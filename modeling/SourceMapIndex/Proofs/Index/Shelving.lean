import Mathlib
import SourceMapIndex.Proofs.Index.Observation
import SourceMapIndex.Proofs.Index.Ranks

/-!
# An index by ranks and its shelves

An index by ranks and an index with shelves are two layouts of the same thing. What the one
has under a rank is what stands on the shelf at this place in the other. If the two take the
same mappings, they keep to that, and so there is no answer that tells them apart. Whatever is
known of the shelves is then known of the map, and the other way round.

## Main definitions

- `Index.atRank?` — what stands on the shelf at a place
- `RankedIndex.Represents` — an index by ranks has what stands on the shelves
- `RankedIndex.AnswersLike` — all answers of an index by ranks are those of the shelves
- `RankedIndex.ofFiled` — the index by ranks that takes some mappings behind a source table

## Main results

- `Represents.insert` — one mapping leaves the two layouts alike
- `Represents.answersLike` — alike layouts have the same answers
- `RankedIndex.beq_ofFiled` — and are compared alike
- `RankedIndex.sound_ofFiled` — every point on the way to an index
-/

namespace SourceMapIndex

namespace Shelf

/-- Filing changes the shelf of the source, which comes behind all others if it is new. -/
theorem getElem?_file (source : String) (origin : Location) (occurrence : Occurrence)
    (shelves : List Shelf) (rank : Nat) :
    (file source origin occurrence shelves)[rank]? =
      if rank = (shelves.map Shelf.source).idxOf source then
        some ((shelves[rank]?.getD (ofSource source)).add origin occurrence)
      else shelves[rank]? := by
  induction shelves generalizing rank with
  | nil => cases rank <;> simp [file]
  | cons shelf rest ih =>
    by_cases hshelf : shelf.source = source
    · cases rank <;> simp [file, hshelf]
    · cases rank with
      | zero => simp [file, hshelf]
      | succ rank => simp [file, hshelf, ih]

/-- The shelf of a source is the one at the place of the source; there is none behind the last. -/
theorem find?_eq_getElem?_idxOf (shelves : List Shelf) (source : String) :
    shelves.find? (·.source == source) = shelves[(shelves.map Shelf.source).idxOf source]? := by
  induction shelves with
  | nil => rfl
  | cons shelf rest ih => by_cases hshelf : shelf.source = source <;> simp [hshelf, ih]

/-- What some shelves hold at a location of the source of a rank. -/
def lookupRank (shelves : List Shelf) (rank : Nat) (origin : Location) :
    Option (List Occurrence) :=
  shelves[rank]?.bind (·.get? origin)

theorem lookupRank_file (source : String) (origin place : Location) (occurrence : Occurrence)
    (shelves : List Shelf) (rank : Nat) :
    lookupRank (file source origin occurrence shelves) rank place =
      if (shelves.map Shelf.source).idxOf source = rank ∧ origin = place then
        some ((lookupRank shelves rank place).getD [] ++ [occurrence])
      else lookupRank shelves rank place := by
  -- a shelf that is not there yet answers like one on which nothing is filed
  have hshelf (other : Location) :
      (shelves[rank]?.getD (ofSource source)).get? other = lookupRank shelves rank other := by
    rw [lookupRank]
    cases shelves[rank]? with
    | none => exact get?_ofSource source other
    | some shelf => rfl
  rw [lookupRank, getElem?_file]
  by_cases hrank : (shelves.map Shelf.source).idxOf source = rank
  · rw [if_pos hrank.symm, Option.bind_some, get?_add, hshelf, hshelf]
    by_cases hplace : origin = place
    · rw [if_pos hplace, if_pos ⟨hrank, hplace⟩, hplace]
    · rw [if_neg hplace, if_neg fun h => hplace h.2]
  · rw [if_neg (Ne.symm hrank), if_neg fun h => hrank h.1, lookupRank]

end Shelf

namespace Index

variable {index : Index}

/-- What is held under a rank and a location. -/
def atRank? (index : Index) (rank : Nat) (origin : Location) : Option (List Occurrence) :=
  Shelf.lookupRank index.shelves rank origin

theorem mem_byPlace_iff {rank : Nat} {origin : Location} {occurrences : List Occurrence} :
    ((rank, origin), occurrences) ∈ index.byPlace ↔
      index.atRank? rank origin = some occurrences := by
  simp only [byPlace, atRank?, Shelf.lookupRank, List.mem_flatMap, Prod.exists, List.mem_map,
    Prod.mk.injEq, List.mk_mem_zipIdx_iff_getElem?, List.getElem?_map, Option.map_eq_some_iff,
    Option.bind_eq_some_iff]
  constructor
  · rintro ⟨_, _, ⟨shelf, hshelf, rfl⟩, _, _, hentry, ⟨rfl, rfl⟩, rfl⟩
    exact ⟨shelf, hshelf, Shelf.get?_eq_some_iff.mpr hentry⟩
  · rintro ⟨shelf, hshelf, hget⟩
    exact ⟨_, rank, ⟨shelf, hshelf, rfl⟩, origin, occurrences, Shelf.get?_eq_some_iff.mp hget,
      ⟨rfl, rfl⟩, rfl⟩

theorem pairwise_byPlace (index : Index) :
    index.byPlace.Pairwise fun a b => Prod.Lex (· < ·) (· < ·) a.1 b.1 := by
  rw [byPlace, List.pairwise_flatMap]
  constructor
  · rintro ⟨entries, rank⟩ hmem
    obtain ⟨shelf, -, rfl⟩ := List.mem_map.mp (List.fst_mem_of_mem_zipIdx hmem)
    rw [List.pairwise_map]
    exact shelf.pairwise_entries.imp fun {a b} h => Prod.Lex.right rank (h : a.1 < b.1)
  · apply (Distinct.pairwise_zipIdx_lt _ 0).imp
    intro first next hlt a ha b hb
    obtain ⟨_, -, rfl⟩ := List.mem_map.mp ha
    obtain ⟨_, -, rfl⟩ := List.mem_map.mp hb
    exact Prod.Lex.left _ _ hlt

theorem entries_eq_map_byPlace (index : Index) :
    index.entries = index.byPlace.map fun row =>
      ⟨index.sourceTable[row.1.1]?.getD "", row.1.2, row.2⟩ := by
  have hshelves : index.entries = (index.shelves.zipIdx.map Prod.fst).flatMap fun shelf =>
      shelf.entries.map fun row => ⟨shelf.source, row.1, row.2⟩ := by
    rw [List.zipIdx_map_fst]
    rfl
  rw [hshelves, byPlace, List.zipIdx_map, List.flatMap_map, List.flatMap_map, List.map_flatMap]
  apply List.flatMap_congr
  rintro ⟨shelf, rank⟩ hmem
  have hsource : index.sourceTable[rank]? = some shelf.source := by
    rw [sourceTable, List.getElem?_map, List.mk_mem_zipIdx_iff_getElem?.mp hmem]
    rfl
  simp [hsource]

theorem shelf?_eq_getElem?_idxOf (index : Index) (source : String) :
    index.shelf? source = index.shelves[index.sourceTable.idxOf source]? :=
  Shelf.find?_eq_getElem?_idxOf index.shelves source

end Index

namespace RankedIndex

/-- An index by ranks has what stands on the shelves of another index. -/
structure Represents (ranked : RankedIndex) (index : Index) : Prop where
  table : ranked.table = index.sourceTable
  at? : ∀ rank origin, ranked.at? (rank, origin) = index.atRank? rank origin
  generatedLines : ranked.generatedLines = index.generatedLines
  mappingCount : ranked.mappingCount = index.mappingCount

/-- All answers of an index by ranks are those of an index with shelves. -/
structure AnswersLike (ranked : RankedIndex) (index : Index) : Prop where
  rows : ranked.rows = index.byPlace
  sourceTable : ranked.sourceTable = index.sourceTable
  sources : ranked.sources = index.sources
  get? : ∀ source origin, ranked.get? source origin = index.get? source origin
  entries : ranked.entries = index.entries
  entriesOf : ∀ source, ranked.entriesOf source = index.entriesOf source
  entriesAt : ∀ source line, ranked.entriesAt source line = index.entriesAt source line
  size : ranked.size = index.size
  isEmpty : ranked.isEmpty = index.isEmpty
  mappingCount : ranked.mappingCount = index.mappingCount
  generatedLines : ranked.generatedLines = index.generatedLines
  toJson : ranked.toJson = index.toJson

/-! ### Filling -/

theorem represents_ofSources (sources : List String) (lines : UInt32) :
    ((RankedBuilder.ofSources sources).finish lines).Represents
      ((Builder.ofSources sources).finish lines) where
  table := by
    change (RankedBuilder.ofSources sources).table = _
    rw [table_ofSources, Builder.sourceTable_ofSources]
  at? := by
    intro rank origin
    change none = Shelf.lookupRank (Builder.ofSources sources).shelves rank origin
    rw [Shelf.lookupRank, Builder.ofSources, List.getElem?_map]
    cases (sources.map Source.withoutQuery).eraseDups[rank]? with
    | none => rfl
    | some source => exact (Shelf.get?_ofSource source origin).symm
  generatedLines := rfl
  mappingCount := rfl

/-- One mapping leaves the two layouts alike. -/
theorem Represents.insert {ranked : RankedBuilder} {builder : Builder} {lines : UInt32}
    (h : (ranked.finish lines).Represents (builder.finish lines)) (mapping : Resolved) :
    ((ranked.insert mapping).finish lines).Represents
      ((builder.insert mapping).finish lines) := by
  have hfiles := files_insert ranked lines mapping
  exact {
    table := by rw [hfiles.table, h.table, Builder.sourceTable_insert]
    at? := by
      intro rank origin
      rw [hfiles.at?, h.table, h.at?]
      exact (Shelf.lookupRank_file mapping.source mapping.origin origin mapping.occurrence
        builder.shelves rank).symm
    generatedLines := rfl
    mappingCount := congrArg (· + 1) h.mappingCount }

theorem Represents.foldl_insert (mappings : List Resolved) {ranked : RankedBuilder}
    {builder : Builder} {lines : UInt32}
    (h : (ranked.finish lines).Represents (builder.finish lines)) :
    ((mappings.foldl RankedBuilder.insert ranked).finish lines).Represents
      ((mappings.foldl Builder.insert builder).finish lines) := by
  induction mappings generalizing ranked builder with
  | nil => exact h
  | cons mapping rest ih => exact ih (h.insert mapping)

/-! ### Lines -/

/-- Entries whose lines never go back start every line once. -/
theorem linesFrom_some {last : UInt32} {entries : List (Location × List Occurrence)}
    (h : (last :: entries.map fun entry => entry.1.line).Pairwise (· ≤ ·)) :
    last :: linesFrom (some last) entries =
      (last :: entries.map fun entry => entry.1.line).eraseDups := by
  induction entries generalizing last with
  | nil => rfl
  | cons entry rest ih =>
    obtain ⟨hle, hrest⟩ := List.pairwise_cons.mp h
    by_cases hsame : last = entry.1.line
    · subst hsame
      simp only [linesFrom, if_true, ih hrest, List.map_cons, List.eraseDups_cons,
        List.filter_cons, beq_self_eq_true, Bool.not_true, Bool.false_eq_true, if_false]
    · -- the line before this entry does not come up any more
      have hlt : last < entry.1.line := UInt32.lt_of_le_of_ne (hle _ (by simp)) hsame
      have hnew : last ∉ (entry :: rest).map fun entry => entry.1.line :=
        Shelf.not_mem_of_lt_head hrest hlt
      have hstart : linesFrom (some last) (entry :: rest) =
          entry.1.line :: linesFrom (some entry.1.line) rest := by
        simp [linesFrom, hsame]
      rw [hstart, ih hrest, Distinct.eraseDups_cons_of_not_mem hnew, List.map_cons]

theorem linesFrom_none {entries : List (Location × List Occurrence)}
    (h : entries.Pairwise fun a b => a.1 < b.1) :
    linesFrom none entries = (entries.map fun entry => entry.1.line).eraseDups := by
  cases entries with
  | nil => rfl
  | cons entry rest => exact linesFrom_some (Shelf.pairwise_line_le h)

/-! ### Answers -/

section Represents

variable {ranked : RankedIndex} {index : Index} (h : ranked.Represents index)

include h

theorem Represents.rows : ranked.rows = index.byPlace := by
  refine Distinct.eq_of_ascending (fun _ _ => Location.lex_asymm) ranked.pairwise_rows
    index.pairwise_byPlace ?_
  rintro ⟨⟨rank, origin⟩, occurrences⟩
  rw [mem_rows_iff, Index.mem_byPlace_iff, h.at?]

theorem Represents.entries : ranked.entries = index.entries := by
  rw [entries_eq_map_rows, index.entries_eq_map_byPlace, h.rows, h.table]

/-- What the map has under a rank is what stands on the shelf there. -/
theorem Represents.ofRank {rank : Nat} {shelf : Shelf} (hshelf : index.shelves[rank]? = some shelf) :
    ranked.ofRank rank = shelf.entries := by
  refine Distinct.eq_of_ascending (fun _ _ => Location.lt_asymm) (ranked.pairwise_ofRank rank)
    shelf.pairwise_entries ?_
  rintro ⟨origin, occurrences⟩
  rw [mem_ofRank_iff, h.at?, Index.atRank?, Shelf.lookupRank, hshelf, Option.bind_some,
    Shelf.get?_eq_some_iff]

theorem Represents.ofLine {rank : Nat} {shelf : Shelf} (hshelf : index.shelves[rank]? = some shelf)
    (line : UInt32) : ranked.ofLine rank line = shelf.entriesAt line := by
  rw [ofLine_eq, h.ofRank hshelf, shelf.entriesAt_eq]

/-- A source has a shelf at its rank, or it has neither rank nor shelf. -/
theorem Represents.rank_cases (source : String) :
    (∃ rank shelf, ranked.rank? source = some rank ∧ index.shelves[rank]? = some shelf ∧
      index.shelf? source = some shelf) ∨
    (ranked.rank? source = none ∧ index.shelf? source = none) := by
  rw [RankedIndex.rank?, h.table]
  by_cases hmem : source ∈ index.sourceTable
  · obtain ⟨shelf, hshelf⟩ : ∃ shelf, index.shelf? source = some shelf := by
      rw [← Option.ne_none_iff_exists', Ne, Index.shelf?_eq_none_iff, not_not]
      exact hmem
    refine Or.inl ⟨_, shelf, Rank.idxOf?_of_mem hmem, ?_, hshelf⟩
    rw [← index.shelf?_eq_getElem?_idxOf, hshelf]
  · exact Or.inr ⟨List.idxOf?_eq_none_iff.mpr hmem, Index.shelf?_eq_none_iff.mpr hmem⟩

theorem Represents.get? (source : String) (origin : Location) :
    ranked.get? source origin = index.get? source origin := by
  rw [RankedIndex.get?, Index.get?]
  rcases h.rank_cases source with ⟨rank, shelf, hrank, hplace, hshelf⟩ | ⟨hrank, hshelf⟩
  · have hat := h.at? rank origin
    rw [Index.atRank?, Shelf.lookupRank, hplace] at hat
    rw [hrank, hshelf]
    exact hat
  · rw [hrank, hshelf]
    rfl

theorem Represents.entriesOf (source : String) :
    ranked.entriesOf source = index.entriesOf source := by
  rw [RankedIndex.entriesOf, Index.entriesOf]
  rcases h.rank_cases source with ⟨rank, shelf, hrank, hplace, hshelf⟩ | ⟨hrank, hshelf⟩
  · rw [hrank, hshelf]
    exact h.ofRank hplace
  · rw [hrank, hshelf]

theorem Represents.entriesAt (source : String) (line : UInt32) :
    ranked.entriesAt source line = index.entriesAt source line := by
  rw [RankedIndex.entriesAt, Index.entriesAt]
  rcases h.rank_cases source with ⟨rank, shelf, hrank, hplace, hshelf⟩ | ⟨hrank, hshelf⟩
  · rw [hrank, hshelf]
    exact h.ofLine hplace line
  · rw [hrank, hshelf]

/-- The ranks that have entries are the places of the shelves that do. -/
theorem Represents.mapped :
    ranked.mapped = (index.shelves.zipIdx.filter fun (shelf, _) => !shelf.isEmpty).map
      fun (shelf, rank) => (shelf.source, rank) := by
  rw [RankedIndex.mapped, h.table, Index.sourceTable, List.zipIdx_map, List.filter_map]
  congr 1
  apply List.filter_congr
  rintro ⟨shelf, rank⟩ hmem
  have hentries := h.ofRank (List.mk_mem_zipIdx_iff_getElem?.mp hmem)
  simp only [Function.comp_apply, Prod.map_apply, id_eq, hentries]
  rw [Bool.eq_iff_iff, Bool.not_eq_true', Bool.not_eq_true', ← Bool.not_eq_true, ← Bool.not_eq_true,
    List.isEmpty_iff, shelf.isEmpty_iff]

theorem Represents.sources : ranked.sources = index.sources := by
  have hshelves : index.sources =
      ((index.shelves.zipIdx.map Prod.fst).filter fun shelf => !shelf.isEmpty).map Shelf.source := by
    rw [List.zipIdx_map_fst]
    rfl
  rw [RankedIndex.sources, h.mapped, hshelves, List.filter_map, List.map_map, List.map_map]
  rfl

theorem Represents.rankToJson {rank : Nat} {shelf : Shelf}
    (hshelf : index.shelves[rank]? = some shelf) : ranked.rankToJson rank = shelf.toJson := by
  rw [RankedIndex.rankToJson, h.ofRank hshelf, linesFrom_none shelf.pairwise_entries, Shelf.toJson,
    shelf.lines_eq, List.map_map]
  simp only [h.ofLine hshelf]
  rfl

theorem Represents.toJson : ranked.toJson = index.toJson := by
  have hshelves : index.toJson =
      .object (((index.shelves.zipIdx.map Prod.fst).filter fun shelf => !shelf.isEmpty).map
        fun shelf => (shelf.source, shelf.toJson)) := by
    rw [List.zipIdx_map_fst]
    rfl
  rw [RankedIndex.toJson, h.mapped, hshelves, List.filter_map, List.map_map, List.map_map]
  congr 1
  apply List.map_congr_left
  rintro ⟨shelf, rank⟩ hmem
  have hplace := List.mk_mem_zipIdx_iff_getElem?.mp (List.mem_of_mem_filter hmem)
  simp only [Function.comp_apply, h.rankToJson hplace]

theorem Represents.isEmpty : ranked.isEmpty = index.isEmpty := by
  rw [Bool.eq_iff_iff, index.isEmpty_iff, ← h.entries, RankedIndex.entries, List.map_eq_nil_iff,
    ← List.isEmpty_iff, Std.TreeMap.isEmpty_toList, RankedIndex.isEmpty]

/-- Layouts that are alike have the same answers. -/
theorem Represents.answersLike : ranked.AnswersLike index where
  rows := h.rows
  sourceTable := h.table
  sources := h.sources
  get? := h.get?
  entries := h.entries
  entriesOf := h.entriesOf
  entriesAt := h.entriesAt
  size := by
    rw [← index.length_entries, ← h.entries, entries_eq_map_rows, List.length_map, length_rows]
  isEmpty := h.isEmpty
  mappingCount := h.mappingCount
  generatedLines := h.generatedLines
  toJson := h.toJson

end Represents

section Comparison

variable {ranked other : RankedIndex} {a b : Index}

theorem map_toList_eq_iff : ranked.map.toList = other.map.toList ↔ ranked.rows = other.rows := by
  have hinjective : Function.Injective fun row : (Nat × Location) × Array Occurrence =>
      (row.1, row.2.toList) := by
    rintro ⟨key, occurrences⟩ ⟨_, _⟩ hrow
    obtain ⟨rfl, hlists⟩ := Prod.mk.inj hrow
    exact Prod.ext rfl (Array.toList_inj.mp hlists)
  exact hinjective.list_map.eq_iff.symm

theorem beq_iff : (ranked == other) = true ↔
    Index.sameMembers ranked.table other.table = true ∧ ranked.rows = other.rows ∧
      ranked.generatedLines = other.generatedLines ∧
        ranked.mappingCount = other.mappingCount := by
  change (Index.sameMembers ranked.table other.table
      && ranked.map.toList == other.map.toList
      && ranked.generatedLines == other.generatedLines
      && ranked.mappingCount == other.mappingCount) = true ↔ _
  simp only [Bool.and_eq_true, beq_iff_eq, and_assoc, map_toList_eq_iff]

variable (ha : ranked.Represents a) (hb : other.Represents b)

include ha hb

/-- Equal maps are equal entries on all shelves, if there are as many shelves. -/
theorem rows_eq_iff (hlength : a.shelves.length = b.shelves.length) :
    ranked.rows = other.rows ↔ a.shelves.map Shelf.entries = b.shelves.map Shelf.entries := by
  constructor
  · intro hrows
    apply List.ext_getElem
    · simpa using hlength
    · intro rank hrank hother
      rw [List.length_map] at hrank hother
      rw [List.getElem_map, List.getElem_map, ← ha.ofRank (List.getElem?_eq_getElem hrank),
        ← hb.ofRank (List.getElem?_eq_getElem hother), ofRank, ofRank, range_eq, range_eq, hrows]
  · intro hentries
    rw [ha.rows, hb.rows, Index.byPlace, Index.byPlace, hentries]

/-- Layouts that are alike are compared alike. -/
theorem Represents.beq_eq : (ranked == other) = (a == b) := by
  rw [Bool.eq_iff_iff, beq_iff, Index.beq_iff, ha.table, hb.table, ha.generatedLines,
    hb.generatedLines, ha.mappingCount, hb.mappingCount]
  refine and_congr_right fun hmembers => and_congr_left' (rows_eq_iff ha hb ?_)
  simp only [Index.sameMembers, Bool.and_eq_true, beq_iff_eq, Index.sourceTable,
    List.length_map] at hmembers
  exact hmembers.1

end Comparison

/-- The index by ranks that takes some mappings one by one, behind a source table. -/
def ofFiled (sources : List String) (mappings : List Resolved) (lines : UInt32) : RankedIndex :=
  (mappings.foldl RankedBuilder.insert (RankedBuilder.ofSources sources)).finish lines

theorem represents_ofFiled (sources : List String) (mappings : List Resolved) (lines : UInt32) :
    (ofFiled sources mappings lines).Represents (Index.ofFiled sources mappings lines) :=
  (represents_ofSources sources lines).foldl_insert mappings

/-- Two indexes by ranks are the same exactly if the indexes with shelves are. -/
theorem beq_ofFiled (sources others : List String) (mappings further : List Resolved)
    (lines more : UInt32) :
    (ofFiled sources mappings lines == ofFiled others further more) =
      (Index.ofFiled sources mappings lines == Index.ofFiled others further more) :=
  (represents_ofFiled sources mappings lines).beq_eq (represents_ofFiled others further more)

/-- At every point on the way to an index its table, its map and its count fit together, and
they still do at the end. Ranks that are given are kept for ever, and the mapping that comes
next takes its place under one key of the map. All answers of the index are those of the index
with shelves that takes the same mappings. -/
theorem sound_ofFiled (sources : List String) (mappings : List Resolved) (lines : UInt32)
    (n : Nat) :
    (ofFiled sources (mappings.take n) lines).IsSound ∧
    (ofFiled sources mappings lines).IsSound ∧
    (ofFiled sources (mappings.take n) lines).KeepsRanks (ofFiled sources mappings lines) ∧
    (∀ mapping, mappings[n]? = some mapping →
      (ofFiled sources (mappings.take n) lines).Files mapping
        (ofFiled sources (mappings.take (n + 1)) lines)) ∧
    (ofFiled sources mappings lines).AnswersLike (Index.ofFiled sources mappings lines) := by
  have hpoint := (isSound_foldl_insert (mappings.take n) (isSound_ofSources sources lines)).1
  have hrest := isSound_foldl_insert (mappings.drop n) hpoint
  rw [← List.foldl_append, List.take_append_drop] at hrest
  refine ⟨hpoint, hrest.1, hrest.2, ?_, (represents_ofFiled sources mappings lines).answersLike⟩
  intro mapping hmapping
  have hfiles := files_insert
    ((mappings.take n).foldl RankedBuilder.insert (RankedBuilder.ofSources sources)) lines mapping
  rw [ofFiled, ofFiled, List.take_add_one, hmapping, List.foldl_append]
  exact hfiles

/-- The first mapping is of a new source, which has the rank behind the table; the second is of
the table, and the third goes to the key of the first. -/
example :
    (ofFiled ["a.js?v=1", "a.js"] [⟨"x.js", ⟨0, 0⟩, ⟨0, 0⟩, none⟩, ⟨"a.js", ⟨4, 2⟩, ⟨0, 3⟩, none⟩,
      ⟨"x.js", ⟨0, 0⟩, ⟨1, 0⟩, some "n"⟩] 2).rows =
      [((0, ⟨4, 2⟩), [⟨⟨0, 3⟩, none⟩]), ((1, ⟨0, 0⟩), [⟨⟨0, 0⟩, none⟩, ⟨⟨1, 0⟩, some "n"⟩])] := by
  cbv

end RankedIndex

end SourceMapIndex
