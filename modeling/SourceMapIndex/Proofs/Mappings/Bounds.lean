import SourceMapIndex.Proofs.Mappings.Outcome
import SourceMapIndex.Proofs.Mappings.Runs
import SourceMapIndex.Proofs.Vlq.Shortest

/-!
# How far the running values go

A segment adds its fields to the running values, and no field has a magnitude of `2 ^ 31` or
more. The positions are checked after every segment, the indices of the source and the name
are not. They grow by one field with every mapping at most, so a mapping string needs more
than `2 ^ 32` tokens to lead them out of the range of signed words of sixty-four bits.

## Main definitions

- `Cursor.additions` — the sums of the running values and the fields of a segment
- `Cursor.Bounded` — the bounds on running values after a number of mappings
- `Decoder.Applies` — a run applies a segment to running values

## Main results

- `Decoder.bounded_run_collect` — the running values at the end of a run that lists mappings
- `Applies.exists_bounded` — the running values that a run applies a segment to
-/

namespace SourceMapIndex

namespace Segment

theorem decode_of_parse {token : String} {segment : Segment} (h : parse token = .ok segment) :
    Vlq.decode token = .ok segment.fields := by
  rw [parse_eq] at h
  cases hdecode : Vlq.decode token with
  | error fault =>
    rw [hdecode] at h
    cases h
  | ok fields =>
    simp only [hdecode] at h
    cases hfields : ofFields? fields with
    | none =>
      rw [hfields] at h
      cases h
    | some found =>
      rw [hfields] at h
      cases h
      rw [ofFields?_eq_some_iff.mp hfields]

theorem natAbs_le_of_parse {token : String} {segment : Segment} (h : parse token = .ok segment) :
    ∀ field ∈ segment.fields, field.natAbs ≤ 2147483647 :=
  Vlq.natAbs_le_of_decode (decode_of_parse h)

end Segment

namespace Cursor

/-- The running values in the order of a segment's fields. -/
def values (cursor : Cursor) : List Int :=
  [cursor.generatedColumn, cursor.source, cursor.line, cursor.column, cursor.name]

/-- The sums of the running values and the fields of a segment, before they are wrapped. -/
def additions (cursor : Cursor) (segment : Segment) : List Int :=
  List.zipWith (· + ·) cursor.values segment.fields

/-- The bounds on running values after a number of mappings. -/
structure Bounded (count : Nat) (cursor : Cursor) : Prop where
  inRange : cursor.InRange
  source : cursor.source.natAbs ≤ count * 2147483647
  name : cursor.name.natAbs ≤ count * 2147483647

theorem bounded_start : Bounded 0 {} :=
  ⟨inRange_start, Nat.le_refl 0, Nat.le_refl 0⟩

variable {cursor : Cursor} {segment : Segment} {count : Nat}

theorem natAbs_le_of_mem_additions {bound : Nat}
    (hvalues : ∀ value ∈ cursor.values, value.natAbs ≤ bound)
    (hfields : ∀ field ∈ segment.fields, field.natAbs ≤ 2147483647) :
    ∀ sum ∈ cursor.additions segment, sum.natAbs ≤ bound + 2147483647 := by
  intro sum hsum
  obtain ⟨i, hi, rfl⟩ := List.getElem_of_mem hsum
  simp only [additions, List.getElem_zipWith]
  exact (Int.natAbs_add_le _ _).trans
    (Nat.add_le_add (hvalues _ (List.getElem_mem _)) (hfields _ (List.getElem_mem _)))

theorem Bounded.natAbs_le_of_mem_values (h : cursor.Bounded count) :
    ∀ value ∈ cursor.values, value.natAbs ≤ max 4294967295 (count * 2147483647) := by
  obtain ⟨⟨⟨_, hgenerated⟩, ⟨_, hline⟩, ⟨_, hcolumn⟩⟩, hsource, hname⟩ := h
  simp only [values, List.forall_mem_cons]
  refine ⟨?_, ?_, ?_, ?_, ?_, by simp⟩ <;> omega

theorem Bounded.startLine (h : cursor.Bounded count) : cursor.startLine.Bounded count :=
  ⟨h.inRange.startLine, h.source, h.name⟩

/-- A segment that leads to words moves the source and the name by one field at most. -/
theorem Bounded.move (h : cursor.Bounded count)
    (hfields : ∀ field ∈ segment.fields, field.natAbs ≤ 2147483647)
    (hrange : (cursor.move segment).InRange) : (cursor.move segment).Bounded (count + 1) := by
  have hstay : count * 2147483647 ≤ (count + 1) * 2147483647 :=
    Nat.mul_le_mul_right _ (Nat.le_succ count)
  have hmoved : ∀ {value : Int}, value.natAbs ≤ count * 2147483647 → ∀ field ∈ segment.fields,
      (Word.wrap (value + field)).natAbs ≤ (count + 1) * 2147483647 := by
    intro value hvalue field hfield
    rw [Nat.add_one_mul]
    exact (Word.natAbs_wrap_le _).trans <|
      (Int.natAbs_add_le value field).trans (Nat.add_le_add hvalue (hfields field hfield))
  cases segment with
  | minimal => exact ⟨hrange, h.source.trans hstay, h.name.trans hstay⟩
  | full _ source =>
    exact ⟨hrange, hmoved h.source source (by simp [Segment.fields]), h.name.trans hstay⟩
  | named _ source _ _ name =>
    exact ⟨hrange, hmoved h.source source (by simp [Segment.fields]),
      hmoved h.name name (by simp [Segment.fields])⟩

end Cursor

namespace Mappings

def Step.text? : Step → Option String
  | .line _ => none
  | .token _ _ text => some text

theorem Step.filterMap_text_token (line : UInt32) (segment : Nat) (text : String)
    (rest : List Step) :
    (token line segment text :: rest).filterMap text? = text :: rest.filterMap text? :=
  rfl

theorem filterMap_text_steps (mappings : String) :
    (steps mappings).filterMap Step.text? = (tokens mappings).map Token.text := by
  rw [steps_eq_places, tokens_eq_places, List.filterMap_map, List.map_filterMap]
  congr 1
  funext place
  cases place <;> rfl

end Mappings

namespace Decoder

open Mappings (Step tokens)

/-- A run over some steps comes to the token of a segment, with these running values, and
applies the segment to them. -/
def Applies {σ : Type} (use : σ → Mapping → Progress → Except Failure σ) (steps : List Step)
    (start : σ) (cursor : Cursor) (segment : Segment) : Prop :=
  ∃ before line place text rest, steps = before ++ .token line place text :: rest ∧
    (run use before {} start).failure = none ∧
      (run use before {} start).progress.cursor = cursor ∧ Segment.parse text = .ok segment

theorem keeps_bounded :
    Keeps collect fun progress state => progress.cursor.Bounded state.length where
  startLine := fun _ h => h.startLine
  read := by
    intro progress after state next line segment text mapping h hread huse
    obtain ⟨parsed, hparse, hrange, -, rfl⟩ := Progress.of_read_ok hread
    cases huse
    exact h.move (Segment.natAbs_le_of_parse hparse) hrange

/-- The running values are bounded by the number of mappings, also if the run has failed. -/
theorem bounded_run_collect (steps : List Step) :
    (run collect steps {} []).progress.cursor.Bounded (run collect steps {} []).state.length := by
  have hstart : ({} : Progress).cursor.Bounded ([] : List Mapping).length := Cursor.bounded_start
  rcases keeps_bounded.run_cases steps hstart with
    ⟨-, hended⟩ | ⟨last, failure, line, segment, text, -, hlast, hread | ⟨mapping, -, huse⟩⟩
  · exact hended
  · obtain ⟨-, -, hafter⟩ := Progress.of_read_error hread
    rw [hafter]
    exact hlast
  · cases huse

theorem length_outcome_le (steps : List Step) (progress : Progress) :
    (outcome steps progress).state.length ≤ (steps.filterMap Step.text?).length := by
  induction steps generalizing progress with
  | nil => exact Nat.le_refl 0
  | cons step rest ih =>
    cases step with
    | line line => exact ih (progress.startLine line)
    | token line segment text =>
      rw [Step.filterMap_text_token, List.length_cons]
      simp only [outcome]
      rcases progress.read line segment text with ⟨item, after⟩
      cases item with
      | error failure => exact Nat.zero_le _
      | ok mapping => exact Nat.succ_le_succ (ih after)

/-- When a run that lists mappings applies a segment, there are fewer mappings so far than
tokens in the text. -/
theorem Applies.exists_bounded {mappings : String} {cursor : Cursor} {segment : Segment}
    (h : Applies collect (Mappings.steps mappings) [] cursor segment) :
    ∃ count < (tokens mappings).length, cursor.Bounded count := by
  obtain ⟨before, line, place, text, rest, hsteps, -, rfl, -⟩ := h
  refine ⟨_, ?_, bounded_run_collect before⟩
  have hmappings := length_outcome_le before {}
  have htokens := congrArg List.length (Mappings.filterMap_text_steps mappings)
  rw [hsteps, List.filterMap_append, Step.filterMap_text_token, List.length_append,
    List.length_cons, List.length_map] at htokens
  rw [length_run_collect]
  omega

theorem Applies.natAbs_le_of_mem_additions {σ : Type}
    {use : σ → Mapping → Progress → Except Failure σ} {steps : List Step} {start : σ}
    {cursor : Cursor} {segment : Segment} {bound : Nat}
    (h : Applies use steps start cursor segment)
    (hvalues : ∀ value ∈ cursor.values, value.natAbs ≤ bound) :
    ∀ sum ∈ cursor.additions segment, sum.natAbs ≤ bound + 2147483647 := by
  obtain ⟨_, _, _, _, _, -, -, -, hparse⟩ := h
  exact Cursor.natAbs_le_of_mem_additions hvalues (Segment.natAbs_le_of_parse hparse)

end Decoder

end SourceMapIndex
