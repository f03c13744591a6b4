import Mathlib
import SourceMapIndex.Index.Ranked
import SourceMapIndex.Proofs.Distinct
import SourceMapIndex.Proofs.Tables

/-!
# The invariant of an index by ranks

An index by ranks is a table of sources beside a map whose keys are ranks and locations. A
mapping takes the rank of its source, or the next free one if the source is new, and its
occurrence goes to the end of what the map has under its key. Three things have to fit
together after every mapping: the table, the keys of the map, and the count that is kept apart
from both. They do, because a key that is new to the map has a rank that the table has by
then, and no rank is ever given up.

## Main definitions

- `RankedIndex.at?` — what the map has under a key
- `RankedIndex.rows` — the map laid flat
- `RankedIndex.Files` — what becomes of an index when it takes one mapping
- `RankedIndex.IsSound` — table, map and count fit together
- `RankedIndex.KeepsRanks` — no source of an index has another rank in a later one

## Main results

- `RankedIndex.range_eq` — what a range of keys has
- `RankedIndex.files_insert` — one mapping touches one key
- `RankedIndex.IsSound.files` — one mapping leaves a sound index sound
- `RankedIndex.isSound_foldl_insert` — so do any number of mappings
-/

namespace SourceMapIndex

namespace Rank

theorem compare_eq_lt_iff {a b : Nat × Location} :
    Rank.compare a b = .lt ↔ Prod.Lex (· < ·) (· < ·) a b := by
  change (Ord.compare a.1 b.1).then (Location.compare a.2 b.2) = .lt ↔ _
  rw [Ordering.then_eq_lt, Nat.compare_eq_lt, Nat.compare_eq_eq, Location.compare_eq_lt_iff,
    Prod.lex_def]

theorem isLE_compare_iff {a b : Nat × Location} :
    (Rank.compare a b).isLE ↔ a.1 < b.1 ∨ a.1 = b.1 ∧ a.2 ≤ b.2 := by
  change ((Ord.compare a.1 b.1).then (Location.compare a.2 b.2)).isLE ↔ _
  rw [Ordering.isLE_then_iff_or, Nat.compare_eq_lt, Nat.compare_eq_eq, Location.isLE_compare_iff]

theorem idxOf?_of_mem {table : List String} {source : String} (h : source ∈ table) :
    table.idxOf? source = some (table.idxOf source) := by
  obtain ⟨rank, hrank⟩ := Option.isSome_iff_exists.mp (List.isSome_idxOf?.mpr h)
  rw [List.idxOf_eq_getD_idxOf?, hrank, Option.getD_some]

/-- The rank of a source is its place in the table, or the place behind the table. -/
theorem assign_eq (table : List String) (source : String) :
    assign table source =
      (table.idxOf source, if source ∈ table then table else table ++ [source]) := by
  unfold assign
  by_cases hmem : source ∈ table
  · rw [idxOf?_of_mem hmem, if_pos hmem]
  · rw [List.idxOf?_eq_none_iff.mpr hmem, if_neg hmem, List.idxOf_eq_length hmem]

end Rank

namespace RankedIndex

variable {index : RankedIndex}

/-- What the map has under a rank and a location. -/
def at? (index : RankedIndex) (key : Nat × Location) : Option (List Occurrence) :=
  index.map[key]?.map Array.toList

/-- The map laid flat. -/
def rows (index : RankedIndex) : List ((Nat × Location) × List Occurrence) :=
  index.map.toList.map fun (key, occurrences) => (key, occurrences.toList)

/-- The number of occurrences that the map holds. -/
def heldCount (index : RankedIndex) : Nat :=
  (index.rows.map fun row => row.2.length).sum

/-- One index comes from another one by taking a mapping. -/
structure Files (before : RankedIndex) (mapping : Resolved) (after : RankedIndex) : Prop where
  /-- A new source is put behind the table, and nothing else happens to the table. -/
  table : after.table =
    if mapping.source ∈ before.table then before.table else before.table ++ [mapping.source]
  rank : after.table[before.table.idxOf mapping.source]? = some mapping.source
  /-- The occurrence goes to the end of one list, which is made for it if there is none. -/
  at? : ∀ rank origin, after.at? (rank, origin) =
    if before.table.idxOf mapping.source = rank ∧ mapping.origin = origin then
      some ((before.at? (rank, origin)).getD [] ++ [mapping.occurrence])
    else before.at? (rank, origin)
  mappingCount : after.mappingCount = before.mappingCount + 1

/-- The table, the map and the count of an index fit together. -/
structure IsSound (index : RankedIndex) : Prop where
  table : index.table.Nodup
  /-- Every rank in the map is that of a source. -/
  ranks : ∀ row ∈ index.rows, row.1.1 < index.table.length
  /-- Every entry has a source of the table, so it does not matter what an entry without a
  source would have in its place. -/
  entries : ∀ missing, index.entries = index.rows.map fun row =>
    ⟨index.table[row.1.1]?.getD missing, row.1.2, row.2⟩
  nonempty : ∀ row ∈ index.rows, row.2 ≠ []
  mappingCount : index.mappingCount = index.heldCount

/-- Every source of one index has the same rank in another one. -/
structure KeepsRanks (before after : RankedIndex) : Prop where
  table : before.table <+: after.table
  rank? : ∀ source ∈ before.table, after.rank? source = before.rank? source

/-! ### The map laid flat -/

theorem mem_rows_iff {rank : Nat} {origin : Location} {occurrences : List Occurrence} :
    ((rank, origin), occurrences) ∈ index.rows ↔ index.at? (rank, origin) = some occurrences := by
  simp only [rows, at?, List.mem_map, Prod.exists, Prod.mk.injEq, Option.map_eq_some_iff]
  constructor
  · rintro ⟨_, _, found, hfound, ⟨rfl, rfl⟩, rfl⟩
    exact ⟨found, Std.TreeMap.mem_toList_iff_getElem?_eq_some.mp hfound, rfl⟩
  · rintro ⟨found, hfound, rfl⟩
    exact ⟨rank, origin, found, Std.TreeMap.mem_toList_iff_getElem?_eq_some.mpr hfound,
      ⟨rfl, rfl⟩, rfl⟩

theorem pairwise_rows (index : RankedIndex) :
    index.rows.Pairwise fun a b => Prod.Lex (· < ·) (· < ·) a.1 b.1 := by
  rw [rows, List.pairwise_map]
  exact Std.TreeMap.ordered_keys_toList.imp Rank.compare_eq_lt_iff.mp

theorem length_rows (index : RankedIndex) : index.rows.length = index.size := by
  rw [rows, List.length_map, Std.TreeMap.length_toList, size]

theorem entries_eq_map_rows (index : RankedIndex) :
    index.entries = index.rows.map fun row =>
      ⟨index.table[row.1.1]?.getD "", row.1.2, row.2⟩ := by
  rw [entries, rows, List.map_map]
  rfl

/-- The map has one row for a key, or none. -/
theorem filter_rows (index : RankedIndex) (key : Nat × Location) :
    (index.rows.filter fun row => row.1 = key) =
      (index.at? key).toList.map fun occurrences => (key, occurrences) := by
  refine Distinct.eq_of_ascending (fun _ _ => Location.lex_asymm)
    (index.pairwise_rows.filter _) ?_ ?_
  · cases index.at? key <;> simp
  · rintro ⟨⟨rank, origin⟩, occurrences⟩
    simp only [List.mem_filter, mem_rows_iff, decide_eq_true_eq, List.mem_map, Option.mem_toList]
    constructor
    · rintro ⟨hrow, rfl⟩
      exact ⟨occurrences, hrow, rfl⟩
    · rintro ⟨_, hrow, h⟩
      cases h
      exact ⟨hrow, rfl⟩

theorem heldCount_eq (index : RankedIndex) (key : Nat × Location) :
    index.heldCount = ((index.at? key).getD []).length +
      ((index.rows.filter fun row => !decide (row.1 = key)).map fun row => row.2.length).sum := by
  have hsplit := (List.filter_append_perm (fun row => decide (row.1 = key)) index.rows).map
    fun row => row.2.length
  rw [heldCount, ← hsplit.sum_nat, List.map_append, List.sum_append, filter_rows]
  cases index.at? key <;> simp

/-! ### Ranges of the map -/

section Ranges

variable (index : RankedIndex) (rank : Nat)

theorem between_iff {first last : Location} {key : Nat × Location} :
    ((Rank.compare key (rank, first)).isGE ∧ (Rank.compare key (rank, last)).isLE) ↔
      key.1 = rank ∧ first ≤ key.2 ∧ key.2 ≤ last := by
  rw [Std.OrientedCmp.isGE_iff_isLE, Rank.isLE_compare_iff, Rank.isLE_compare_iff]
  constructor
  · rintro ⟨hbehind | ⟨hrank, hfirst⟩, hahead | ⟨hsame, hlast⟩⟩
    · exact absurd hbehind (Nat.lt_asymm hahead)
    · exact absurd hsame (Nat.ne_of_gt hbehind)
    · exact absurd hrank (Nat.ne_of_gt hahead)
    · exact ⟨hsame, hfirst, hlast⟩
  · rintro ⟨rfl, hfirst, hlast⟩
    exact ⟨Or.inr ⟨rfl, hfirst⟩, Or.inr ⟨rfl, hlast⟩⟩

/-- A range of keys of one rank loses none of them, its ends included. -/
theorem range_eq (first last : Location) :
    index.range rank first last =
      (index.rows.filter fun row => row.1.1 = rank ∧ first ≤ row.1.2 ∧ row.1.2 ≤ last).map
        fun row => (row.1.2, row.2) := by
  rw [range, Std.TreeMap.toList_rcc Rank.compare, rows, List.filter_map, List.map_map]
  simp only [between_iff]
  rfl

theorem mem_ofRank_iff {origin : Location} {occurrences : List Occurrence} :
    (origin, occurrences) ∈ index.ofRank rank ↔ index.at? (rank, origin) = some occurrences := by
  rw [← mem_rows_iff, ofRank, range_eq]
  simp only [Location.first_le, Location.le_last, and_self, and_true, List.mem_map,
    List.mem_filter, decide_eq_true_eq, Prod.mk.injEq]
  constructor
  · rintro ⟨⟨⟨_, _⟩, _⟩, ⟨hrow, rfl⟩, rfl, rfl⟩
    exact hrow
  · intro hrow
    exact ⟨_, ⟨hrow, rfl⟩, rfl, rfl⟩

theorem pairwise_ofRank : (index.ofRank rank).Pairwise fun a b => a.1 < b.1 := by
  rw [ofRank, range_eq, List.pairwise_map]
  apply (index.pairwise_rows.filter _).imp_of_mem
  intro a b ha hb hlt
  have harank : a.1.1 = rank := by simpa using (of_decide_eq_true (List.mem_filter.mp ha).2).1
  have hbrank : b.1.1 = rank := by simpa using (of_decide_eq_true (List.mem_filter.mp hb).2).1
  rcases (Prod.lex_def).mp hlt with hrank | ⟨-, horigin⟩
  · omega
  · exact horigin

/-- A line is looked up in the whole map, and is the part of its rank in this line. -/
theorem ofLine_eq (line : UInt32) :
    index.ofLine rank line =
      ((index.ofRank rank).filter fun entry => entry.1.line = line).map fun entry =>
        (entry.1.column, entry.2) := by
  rw [ofLine, ofRank, range_eq, range_eq, List.filter_map, List.map_map, List.map_map,
    List.filter_filter]
  simp only [Location.between_ends_iff, Location.first_le, Location.le_last, and_self, and_true,
    Function.comp_apply, Bool.decide_and]
  congr 2
  funext row
  rw [Bool.and_comm]

end Ranges

/-! ### One mapping -/

/-- An occurrence that is put under a key changes what the map has under this key only. -/
theorem map_toList_alter (map : RankedMap) (key other : Nat × Location) (occurrence : Occurrence) :
    ((map.alter key fun found => some ((found.getD #[]).push occurrence))[other]?.map
        Array.toList) =
      if key = other then some ((map[other]?.map Array.toList).getD [] ++ [occurrence])
      else map[other]?.map Array.toList := by
  simp only [Std.TreeMap.getElem?_alter, Std.LawfulEqCmp.compare_eq_iff_eq]
  split
  · next hkey =>
    rw [← hkey]
    cases map[key]? <;> simp
  · rfl

theorem files_insert (builder : RankedBuilder) (lines : UInt32) (mapping : Resolved) :
    (builder.finish lines).Files mapping ((builder.insert mapping).finish lines) := by
  have htable : ((builder.insert mapping).finish lines).table =
      if mapping.source ∈ builder.table then builder.table
      else builder.table ++ [mapping.source] :=
    congrArg Prod.snd (Rank.assign_eq builder.table mapping.source)
  have hmap : ((builder.insert mapping).finish lines).map =
      builder.map.alter (builder.table.idxOf mapping.source, mapping.origin) fun found =>
        some ((found.getD #[]).push mapping.occurrence) := by
    have hrank : (Rank.assign builder.table mapping.source).1 =
        builder.table.idxOf mapping.source :=
      congrArg Prod.fst (Rank.assign_eq builder.table mapping.source)
    rw [← hrank]
    rfl
  exact {
    table := htable
    rank := by
      rw [htable]
      change (ite _ _ _)[builder.table.idxOf mapping.source]? = _
      split
      · next hmem => exact List.getElem?_idxOf hmem
      · next hnew => rw [List.idxOf_eq_length hnew, List.getElem?_concat_length]
    at? := by
      intro rank origin
      rw [RankedIndex.at?, hmap, map_toList_alter]
      simp only [Prod.mk.injEq]
      rfl
    mappingCount := rfl }

section Files

variable {before after : RankedIndex} {mapping : Resolved}

theorem Files.prefix_table (h : before.Files mapping after) : before.table <+: after.table := by
  rw [h.table]
  split
  · exact List.prefix_rfl
  · exact List.prefix_append _ _

theorem Files.keepsRanks (h : before.Files mapping after) : before.KeepsRanks after := by
  refine ⟨h.prefix_table, ?_⟩
  intro source hsource
  obtain ⟨others, hothers⟩ := h.prefix_table
  have hlater : source ∈ after.table := h.prefix_table.subset hsource
  rw [rank?, rank?, Rank.idxOf?_of_mem hlater, Rank.idxOf?_of_mem hsource, ← hothers,
    List.idxOf_append_of_mem hsource]

/-- A row of the map was there before, or is the one that has taken the occurrence. -/
theorem Files.row_cases (h : before.Files mapping after)
    {row : (Nat × Location) × List Occurrence} (hrow : row ∈ after.rows) :
    (row.1.1 = before.table.idxOf mapping.source ∧
      ∃ others, row.2 = others ++ [mapping.occurrence]) ∨ row ∈ before.rows := by
  obtain ⟨⟨rank, origin⟩, occurrences⟩ := row
  rw [mem_rows_iff, h.at?] at hrow
  split at hrow
  · next hkey => exact Or.inl ⟨hkey.1.symm, _, (Option.some.inj hrow).symm⟩
  · exact Or.inr (mem_rows_iff.mpr hrow)

theorem Files.heldCount (h : before.Files mapping after) :
    after.heldCount = before.heldCount + 1 := by
  let key := (before.table.idxOf mapping.source, mapping.origin)
  -- the other keys have in both what they had
  have hothers : (after.rows.filter fun row => !decide (row.1 = key)) =
      before.rows.filter fun row => !decide (row.1 = key) := by
    refine Distinct.eq_of_ascending (fun _ _ => Location.lex_asymm) (after.pairwise_rows.filter _)
      (before.pairwise_rows.filter _) ?_
    rintro ⟨⟨rank, origin⟩, occurrences⟩
    simp only [List.mem_filter, mem_rows_iff, Bool.not_eq_true', decide_eq_false_iff_not]
    apply and_congr_left
    intro hother
    rw [h.at?, if_neg]
    rintro ⟨rfl, rfl⟩
    exact hother rfl
  have hkey : after.at? key =
      some ((before.at? key).getD [] ++ [mapping.occurrence]) := by
    rw [h.at?, if_pos ⟨rfl, rfl⟩]
  rw [after.heldCount_eq key, before.heldCount_eq key, hothers, hkey, Option.getD_some,
    List.length_append, List.length_singleton]
  omega

/-- If all ranks in the map are those of sources, no entry lacks a source. -/
theorem entries_eq_of_ranks (h : ∀ row ∈ index.rows, row.1.1 < index.table.length)
    (missing : String) :
    index.entries = index.rows.map fun row =>
      ⟨index.table[row.1.1]?.getD missing, row.1.2, row.2⟩ := by
  rw [entries_eq_map_rows]
  apply List.map_congr_left
  intro row hrow
  rw [List.getElem?_eq_getElem (h row hrow)]
  rfl

/-- One mapping keeps table, map and count together. -/
theorem IsSound.files (hsound : before.IsSound) (h : before.Files mapping after) :
    after.IsSound := by
  have hranks : ∀ row ∈ after.rows, row.1.1 < after.table.length := by
    intro row hrow
    rcases h.row_cases hrow with ⟨hrank, -⟩ | hbefore
    · rw [hrank]
      exact (List.getElem?_eq_some_iff.mp h.rank).1
    · exact (hsound.ranks row hbefore).trans_le h.prefix_table.length_le
  exact {
    table := by
      rw [h.table]
      split
      · exact hsound.table
      · next hnew =>
        rw [← List.concat_eq_append]
        exact hsound.table.concat hnew
    ranks := hranks
    entries := entries_eq_of_ranks hranks
    nonempty := by
      intro row hrow
      rcases h.row_cases hrow with ⟨-, others, hlast⟩ | hbefore
      · simp [hlast]
      · exact hsound.nonempty row hbefore
    mappingCount := by rw [h.mappingCount, hsound.mappingCount, h.heldCount] }

end Files

/-! ### Many mappings -/

theorem KeepsRanks.refl (index : RankedIndex) : index.KeepsRanks index :=
  ⟨List.prefix_rfl, fun _ _ => rfl⟩

theorem KeepsRanks.trans {a b c : RankedIndex} (h : a.KeepsRanks b) (hnext : b.KeepsRanks c) :
    a.KeepsRanks c where
  table := h.table.trans hnext.table
  rank? := fun source hsource =>
    (hnext.rank? source (h.table.subset hsource)).trans (h.rank? source hsource)

theorem foldl_assign (sources before : List String) :
    sources.foldl (fun table source => (Rank.assign table source).2) before.eraseDups =
      (before ++ sources).eraseDups := by
  induction sources generalizing before with
  | nil => simp
  | cons source rest ih =>
    have hstep : (Rank.assign before.eraseDups source).2 = (before ++ [source]).eraseDups := by
      rw [Rank.assign_eq, Distinct.eraseDups_concat]
      simp only [List.mem_eraseDups]
    rw [List.foldl_cons, hstep, ih, List.append_assoc]
    rfl

/-- A table has every source once, where it first comes up without its query. -/
theorem table_ofSources (sources : List String) :
    (RankedBuilder.ofSources sources).table = (sources.map Source.withoutQuery).eraseDups :=
  foldl_assign (sources.map Source.withoutQuery) []

/-- A table alone is sound, since its map is empty. -/
theorem isSound_ofSources (sources : List String) (lines : UInt32) :
    ((RankedBuilder.ofSources sources).finish lines).IsSound := by
  have hrows : ((RankedBuilder.ofSources sources).finish lines).rows = [] := rfl
  exact {
    table := by
      change (RankedBuilder.ofSources sources).table.Nodup
      rw [table_ofSources]
      exact Distinct.nodup_eraseDups _
    ranks := by simp [hrows]
    entries := entries_eq_of_ranks (by simp [hrows])
    nonempty := by simp [hrows]
    mappingCount := rfl }

/-- Many mappings keep what one keeps. -/
theorem isSound_foldl_insert (mappings : List Resolved) {builder : RankedBuilder} {lines : UInt32}
    (h : (builder.finish lines).IsSound) :
    ((mappings.foldl RankedBuilder.insert builder).finish lines).IsSound ∧
      (builder.finish lines).KeepsRanks
        ((mappings.foldl RankedBuilder.insert builder).finish lines) := by
  induction mappings generalizing builder with
  | nil => exact ⟨h, KeepsRanks.refl _⟩
  | cons mapping rest ih =>
    have hfiles := files_insert builder lines mapping
    obtain ⟨hsound, hkeeps⟩ := ih (h.files hfiles)
    exact ⟨hsound, hfiles.keepsRanks.trans hkeeps⟩

end RankedIndex

end SourceMapIndex
