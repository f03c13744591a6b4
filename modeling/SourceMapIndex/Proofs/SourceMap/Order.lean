import Mathlib
import SourceMapIndex.Proofs.Index.Grouping
import SourceMapIndex.Proofs.Mappings.Order
import SourceMapIndex.Proofs.SourceMap.Meaning

/-!
# The order of the occurrences of a location

An index keeps the occurrences of a location in the order of the mapping string. Their lines
ascend. Their columns need not, since a segment may step back in its line: they do exactly if
no two mappings of one location stand in one generated line the wrong way round, and a
mapping string in which no segment steps back has no such mappings.

## Main definitions

- `Index.Ascends` — the occurrences of every location ascend
- `Tables.SameOrigin` — two mappings come from one location of one source

## Main results

- `SourceMap.mem_entries_iff` — the entries of an index by the mappings of the mapping string
- `SourceMap.ascends_iff` — when the occurrences ascend
- `SourceMap.not_ascends_of_step_back` — some that do not
-/

namespace SourceMapIndex

open Mappings (StepsForward decode tokens)

/-- No occurrence of a location stands before its neighbour ahead of it. -/
def Index.Ascends (index : Index) : Prop :=
  ∀ entry ∈ index.entries, entry.occurrences.IsChain fun p q => p.toLocation ≤ q.toLocation

theorem Occurrence.isChain_le_iff {occurrences : List Occurrence} :
    (occurrences.IsChain fun p q => p.toLocation ≤ q.toLocation) ↔
      occurrences.Pairwise fun p q => p.toLocation ≤ q.toLocation := by
  have hplaces := List.isChain_iff_pairwise (R := fun a b : Location => a ≤ b)
    (l := occurrences.map Occurrence.toLocation)
  rwa [List.isChain_map, List.pairwise_map] at hplaces

namespace Tables

/-- Two mappings come from one location of one source. -/
def SameOrigin (tables : Tables) (m n : Mapping) : Prop :=
  m.origin = n.origin ∧
    ∃ source, tables.sourceOf? m = some source ∧ tables.sourceOf? n = some source

/-- The occurrences of all locations are in some order of their places exactly if any two
mappings that come from one location are. -/
theorem pairwise_occurrencesAt_iff {tables : Tables} {mappings : List Mapping}
    {r : Location → Location → Prop} :
    (∀ source origin, (tables.occurrencesAt mappings source origin).Pairwise fun p q =>
        r p.toLocation q.toLocation) ↔
      mappings.Pairwise fun m n => tables.SameOrigin m n → r m.generated n.generated := by
  simp only [occurrencesAt, List.pairwise_map, List.pairwise_filter, decide_eq_true_eq]
  simp only [List.pairwise_iff_forall_sublist]
  constructor
  · rintro h m n hmn ⟨horigin, source, hm, hn⟩
    exact h source n.origin hmn ⟨hm, horigin⟩ ⟨hn, rfl⟩
  · rintro h source origin m n hmn ⟨hm, horigin⟩ ⟨hn, hother⟩
    exact h hmn ⟨horigin.trans hother.symm, source, hm, hn⟩

end Tables

namespace SourceMap

variable {map : SourceMap} {options : Options} {index : Index}

/-- The entries of an index are the locations that mappings come from, with the occurrences
of these mappings in the order of the mapping string. -/
theorem mem_entries_iff (h : map.index options = .ok index) {entry : Entry} :
    entry ∈ index.entries ↔ entry.occurrences ≠ [] ∧
      entry.occurrences =
        map.tables.occurrencesAt (decode map.mappings).state entry.source entry.origin := by
  obtain ⟨hread, hindex⟩ := reading_of_index h
  have hfiled := Tables.filed_of_map_resolve (Decoder.readAll_judgeBy hread).2 entry.source
    entry.origin
  rw [← (Mappings.decode_eq_readAll map.mappings).1] at hfiled
  change Builder.filed map.reading.values _ _ = _ at hfiled
  rw [hindex]
  refine (Index.get?_eq_some_iff (Index.nodup_sourceTable_ofFiled _ _ _)).symm.trans ?_
  rw [Index.ofFiled, Builder.get?_finish, hfiled]
  split
  · next hnil => simp [hnil]
  · next hne =>
    rw [Option.some.injEq]
    exact ⟨fun heq => ⟨heq ▸ hne, heq.symm⟩, fun heq => heq.2.symm⟩

theorem forall_mem_entries_iff (h : map.index options = .ok index)
    {p : List Occurrence → Prop} (hnil : p []) :
    (∀ entry ∈ index.entries, p entry.occurrences) ↔
      ∀ source origin, p (map.tables.occurrencesAt (decode map.mappings).state source origin) := by
  constructor
  · intro hentries source origin
    by_cases hne : map.tables.occurrencesAt (decode map.mappings).state source origin = []
    · rw [hne]
      exact hnil
    · exact hentries ⟨source, origin, _⟩ ((mem_entries_iff h).mpr ⟨hne, rfl⟩)
  · intro hplaces entry hentry
    rw [((mem_entries_iff h).mp hentry).2]
    exact hplaces entry.source entry.origin

theorem ascends_iff_pairwise (h : map.index options = .ok index) :
    index.Ascends ↔ (decode map.mappings).state.Pairwise fun m n =>
      map.tables.SameOrigin m n → m.generated ≤ n.generated := by
  simp only [Index.Ascends, Occurrence.isChain_le_iff]
  rw [forall_mem_entries_iff h List.Pairwise.nil]
  exact Tables.pairwise_occurrencesAt_iff

/-- The occurrences of the locations of an index ascend exactly if no two mappings of one
location are in one generated line with the column of the later one before that of the
earlier one. Their lines ascend in any case. A mapping string of lines that words can tell
apart has no such mappings if no segment but the first of a line steps back. -/
theorem ascends_iff (h : map.index options = .ok index) :
    (index.Ascends ↔ (decode map.mappings).state.Pairwise fun m n =>
      map.tables.SameOrigin m n → m.generated.line = n.generated.line →
        m.generated.column ≤ n.generated.column) ∧
    (∀ entry ∈ index.entries, entry.occurrences.IsChain fun p q => p.line ≤ q.line) ∧
    ((Text.parts ';' map.mappings).length ≤ 4294967296 → StepsForward map.mappings →
      index.Ascends) := by
  have hlines := Mappings.pairwise_generated_line_le map.mappings
  refine ⟨?_, ?_, ?_⟩
  · rw [ascends_iff_pairwise h]
    rw [List.pairwise_iff_forall_sublist] at hlines ⊢
    rw [List.pairwise_iff_forall_sublist]
    -- the lines ascend, so only mappings in one line can be the wrong way round
    constructor
    · intro hle m n hmn horigin hline
      rcases hle hmn horigin with hlt | ⟨-, hcolumn⟩
      · exact absurd hlt (hline ▸ UInt32.lt_irrefl _)
      · exact hcolumn
    · intro hle m n hmn horigin
      by_cases hline : m.generated.line = n.generated.line
      · exact Or.inr ⟨hline, hle hmn horigin hline⟩
      · exact Or.inl (UInt32.lt_of_le_of_ne (hlines hmn) hline)
  · rw [forall_mem_entries_iff h List.IsChain.nil]
    intro source origin
    have hplaces := (Tables.pairwise_occurrencesAt_iff (r := fun p q => p.line ≤ q.line)).mpr
      (hlines.imp_of_mem fun _ _ hle (_ : map.tables.SameOrigin _ _) => hle)
    exact (hplaces source origin).isChain
  · intro hgroups hforward
    rw [ascends_iff_pairwise h]
    refine (Mappings.pairwise_generated_le hgroups hforward).imp ?_
    intro m n hle _
    exact hle

/-- Segments that step forward, and a line that begins anew behind them. -/
theorem ascends_of_forward_steps :
    let map := ofMappings "IAAA,EAAA;AAAA" #["a.js"] #[]
    ∃ index, map.index = .ok index ∧ (Text.parts ';' map.mappings).length ≤ 4294967296 ∧
      StepsForward map.mappings ∧ index.Ascends ∧
        index.get? "a.js" ⟨0, 0⟩ =
          some [⟨⟨0, 4⟩, none⟩, ⟨⟨0, 6⟩, none⟩, ⟨⟨1, 0⟩, none⟩] := by
  intro map
  have hanswer : (map.index.toOption.map fun index => index.get? "a.js" ⟨0, 0⟩) =
      some (some [⟨⟨0, 4⟩, none⟩, ⟨⟨0, 6⟩, none⟩, ⟨⟨1, 0⟩, none⟩]) := by
    cbv
  have hgroups : (Text.parts ';' map.mappings).length = 2 := by cbv
  have hforward : StepsForward map.mappings := by
    have hsteps : (tokens map.mappings).map (fun token => (token.segment, token.value 0)) =
        [(0, 4), (1, 2), (0, 0)] := by
      cbv
    intro token htoken
    have hstep := List.mem_map_of_mem (f := fun token => (token.segment, token.value 0)) htoken
    simp only [hsteps, List.mem_cons, Prod.mk.injEq, List.not_mem_nil, or_false] at hstep
    omega
  obtain ⟨index, hindex, hget⟩ := Option.map_eq_some_iff.mp hanswer
  refine ⟨index, index_of_toOption hindex, by omega, hforward, ?_, hget⟩
  exact (ascends_iff (index_of_toOption hindex)).2.2 (by omega) hforward

/-- The second segment steps back by eight columns, and its occurrence stays behind the
first. -/
theorem not_ascends_of_step_back :
    let map := ofMappings "UAAA,RAAA" #["a.js"] #[]
    ∃ index, map.index = .ok index ∧
      index.entries = [⟨"a.js", ⟨0, 0⟩, [⟨⟨0, 10⟩, none⟩, ⟨⟨0, 2⟩, none⟩]⟩] ∧
        ¬index.Ascends := by
  intro map
  have hanswer : (map.index.toOption.map Index.entries) =
      some [⟨"a.js", ⟨0, 0⟩, [⟨⟨0, 10⟩, none⟩, ⟨⟨0, 2⟩, none⟩]⟩] := by
    cbv
  obtain ⟨index, hindex, hentries⟩ := Option.map_eq_some_iff.mp hanswer
  refine ⟨index, index_of_toOption hindex, hentries, ?_⟩
  intro hascends
  have hentry := hascends _ (hentries ▸ List.mem_singleton.mpr rfl)
  rw [Occurrence.isChain_le_iff] at hentry
  exact absurd hentry (by decide)

end SourceMap

end SourceMapIndex
