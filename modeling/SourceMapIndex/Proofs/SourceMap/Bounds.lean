import SourceMapIndex.Proofs.Mappings.Bounds
import SourceMapIndex.Proofs.SourceMap.Meaning

/-!
# Running values in a source map

The running values of a source map are signed words of sixty-four bits, and the sums that
segments make stay in the range of such words. If only the mapping string is read, that holds
for `2 ^ 32` tokens. If an index is built, the tables are a bound, however long the mapping
string is: a mapping is received only if its source and its name are in their tables, so the
next segment starts from there.

## Main definitions

- `Tables.Admits` — the indices among running values are zero or in their tables
- `SourceMap.StaysInBounds` — the bounds on all running values and sums of a source map

## Main results

- `Builder.keeps_admits` — a builder keeps the indices in their tables
- `SourceMap.staysInBounds` — the bounds of every source map
-/

namespace SourceMapIndex

namespace Tables

/-- The indices among some running values are in their tables, where they are not zero. -/
structure Admits (tables : Tables) (cursor : Cursor) : Prop where
  source : cursor.source = 0 ∨ Covers tables.sources cursor.source
  name : cursor.name = 0 ∨ Covers tables.names cursor.name

variable {tables : Tables} {cursor : Cursor}

/-- A segment whose mapping has no flaw moves the source into its table. The name stays where it
was, or is moved into its table too. -/
theorem Admits.move (h : tables.Admits cursor) {segment : Segment} {line : UInt32}
    (hflaw : tables.flaw? ((cursor.move segment).mappingAt line
      ((cursor.move segment).nameFor segment)) = none) : tables.Admits (cursor.move segment) := by
  obtain ⟨hsource, hname⟩ := (tables.flaw?_eq_none_iff _).mp hflaw
  refine ⟨Or.inr hsource, ?_⟩
  cases segment with
  | minimal | full => exact h.name
  | named => exact Or.inr (hname _ rfl)

theorem Admits.natAbs_le_of_mem_values (h : tables.Admits cursor) (hrange : cursor.InRange) :
    ∀ value ∈ cursor.values,
      value.natAbs ≤ max (max tables.sources.size tables.names.size) 4294967296 := by
  obtain ⟨⟨_, hgenerated⟩, ⟨_, hline⟩, ⟨_, hcolumn⟩⟩ := hrange
  obtain ⟨hsource, hname⟩ := h
  unfold Covers at hsource hname
  simp only [Cursor.values, List.forall_mem_cons]
  refine ⟨?_, ?_, ?_, ?_, ?_, by simp⟩ <;> omega

end Tables

theorem Builder.keeps_admits (tables : Tables) :
    Decoder.Keeps (receive tables) fun progress _ =>
      progress.cursor.InRange ∧ tables.Admits progress.cursor where
  startLine := fun _ h => ⟨h.1.startLine, h.2.source, h.2.name⟩
  read := by
    intro progress after builder next line segment text mapping h hread hreceive
    obtain ⟨parsed, -, hrange, rfl, rfl⟩ := Decoder.Progress.of_read_ok hread
    obtain ⟨resolved, hresolve, -⟩ := exists_resolved_of_receive hreceive
    exact ⟨hrange, h.2.move (Tables.finds_of_resolve hresolve).1⟩

open Decoder (Applies collect ofString run)
open Mappings (decode steps tokens)

/-- The bounds on the running values of a source map, and on the sums that segments make. -/
structure SourceMap.StaysInBounds (map : SourceMap) : Prop where
  /-- A decoder was called any number of times. -/
  calls : ∀ n, ((ofString map.mappings).after n).progress.cursor.Bounded
    (min n (decode map.mappings).state.length)
  /-- A run has come to any point of the mapping string. -/
  points : ∀ before, before <+: steps map.mappings →
    (run collect before {} []).progress.cursor.Bounded (run collect before {} []).state.length
  /-- A run applies a segment, which may fail. -/
  additions : (tokens map.mappings).length ≤ 4294967296 → ∀ cursor segment,
    Applies collect (steps map.mappings) [] cursor segment →
      ∀ sum ∈ cursor.additions segment,
        -9223372036854775808 ≤ sum ∧ sum ≤ 9223372036854775807
  /-- A build applies a segment, of a mapping string of any length. -/
  building : ∀ cursor segment,
    Applies (Builder.receive map.tables) (steps map.mappings)
      (Builder.ofSources map.sources.toList) cursor segment →
      cursor.InRange ∧ map.tables.Admits cursor ∧ ∀ sum ∈ cursor.additions segment,
        sum.natAbs ≤ max (max map.sources.size map.names.size) 4294967296 + 2147483648

namespace SourceMap

variable {map : SourceMap} {cursor : Cursor} {segment : Segment}

/-- A build applies segments to positions that are words and to indices that its tables admit. -/
theorem admits_of_applies
    (h : Applies (Builder.receive map.tables) (steps map.mappings)
      (Builder.ofSources map.sources.toList) cursor segment) :
    cursor.InRange ∧ map.tables.Admits cursor := by
  obtain ⟨before, _, _, _, _, -, hfailure, rfl, -⟩ := h
  exact (Builder.keeps_admits map.tables).run ⟨Cursor.inRange_start, Or.inl rfl, Or.inl rfl⟩
    hfailure

/-- The running values of every source map stay in bounds. -/
theorem staysInBounds (map : SourceMap) : map.StaysInBounds where
  calls := by
    intro n
    obtain ⟨before, -, hprogress, hstate⟩ :=
      Decoder.exists_prefix_after (steps map.mappings) {} n
    have hbounded := Decoder.bounded_run_collect before
    rw [Decoder.length_run_collect, hstate, List.length_take, Decoder.run_collect, hprogress,
      ← Decoder.decode_eq_outcome] at hbounded
    exact hbounded
  points := fun before _ => Decoder.bounded_run_collect before
  additions := by
    intro hlength cursor segment happlies sum hsum
    obtain ⟨count, hcount, hbounded⟩ := happlies.exists_bounded
    have hle := happlies.natAbs_le_of_mem_additions hbounded.natAbs_le_of_mem_values sum hsum
    have hmost : count * 2147483647 ≤ 4294967295 * 2147483647 :=
      Nat.mul_le_mul_right _ (by omega)
    omega
  building := by
    intro cursor segment happlies
    obtain ⟨hrange, hadmits⟩ := admits_of_applies happlies
    refine ⟨hrange, hadmits, fun sum hsum => ?_⟩
    exact (happlies.natAbs_le_of_mem_additions (hadmits.natAbs_le_of_mem_values hrange)
      sum hsum).trans (Nat.add_le_add_left (by decide) _)

/-- Two segments go as far ahead among the sources as a field can. A decoder adds both up; a build
takes the first from zero and fails. -/
theorem staysInBounds_far_source :
    let map := ofMappings "A+/////DAA,A+/////DAA" #["a.js"] #[]
    map.StaysInBounds ∧ (tokens map.mappings).length ≤ 4294967296 ∧
      Applies collect (steps map.mappings) [] ⟨0, 2147483647, 0, 0, 0⟩ (.full 0 2147483647 0 0) ∧
      Cursor.additions ⟨0, 2147483647, 0, 0, 0⟩ (.full 0 2147483647 0 0) = [0, 4294967294, 0, 0] ∧
      Applies (Builder.receive map.tables) (steps map.mappings)
        (Builder.ofSources map.sources.toList) {} (.full 0 2147483647 0 0) := by
  intro map
  have hlength : (tokens "A+/////DAA,A+/////DAA").length ≤ 4294967296 := by decide +kernel
  have hsteps : steps "A+/////DAA,A+/////DAA" =
      [.line 0, .token 0 0 "A+/////DAA", .token 0 1 "A+/////DAA"] := by
    decide +kernel
  have hparse : Segment.parse "A+/////DAA" = .ok (.full 0 2147483647 0 0) := by cbv
  refine ⟨staysInBounds map, hlength, ?_, by decide, ?_⟩
  · exact ⟨[.line 0, .token 0 0 "A+/////DAA"], 0, 1, "A+/////DAA", [], hsteps, by cbv, by cbv,
      hparse⟩
  · exact ⟨[.line 0], 0, 0, "A+/////DAA", [.token 0 1 "A+/////DAA"], hsteps, rfl, rfl, hparse⟩

end SourceMap

end SourceMapIndex
