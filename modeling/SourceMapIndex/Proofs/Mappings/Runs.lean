import SourceMapIndex.Proofs.Mappings.Sums

/-!
# What a run keeps

A run makes steps of two kinds: it begins a group, or it reads a token and passes its mapping
on. What both keep holds at the end of every run that does not fail. A run that fails has come
to a point where it still holds, and fails at the next token.

## Main definitions

- `Decoder.Keeps` — what the steps of a run keep

## Main results

- `Progress.of_read_ok`, `Progress.of_read_error` — what a token does to a progress
- `Keeps.run_cases` — what holds at the end of a run
-/

namespace SourceMapIndex

namespace Decoder

open Mappings (Step)

namespace Progress

variable {progress after : Progress} {line : UInt32} {segment : Nat} {text : String}

/-- A token that is read moves the cursor by its segment, which is then the last one. -/
theorem of_read_ok {mapping : Mapping}
    (h : progress.read line segment text = (.ok mapping, after)) :
    ∃ parsed, Segment.parse text = .ok parsed ∧ (progress.cursor.move parsed).InRange ∧
      mapping = (progress.cursor.move parsed).mappingAt line
        ((progress.cursor.move parsed).nameFor parsed) ∧
      after = { progress with
        cursor := progress.cursor.move parsed
        lastSegment := (line, segment) } := by
  unfold read at h
  split at h
  · cases h
  · cases hparse : Segment.parse text with
    | error reason =>
      rw [hparse] at h
      cases h
    | ok parsed =>
      simp only [hparse, Cursor.apply_eq] at h
      cases hflaw : (progress.cursor.move parsed).flaw? with
      | some reason =>
        rw [hflaw] at h
        cases h
      | none =>
        rw [hflaw] at h
        cases h
        exact ⟨parsed, rfl, (Cursor.flaw?_eq_none_iff _).mp hflaw, rfl, rfl⟩

/-- A token that fails does so at its place, and changes nothing but the list of empty tokens. -/
theorem of_read_error {failure : Failure}
    (h : progress.read line segment text = (.error failure, after)) :
    failure.line = line ∧ failure.segment = segment ∧
      after = { progress with emptyTokens := after.emptyTokens } := by
  unfold read at h
  split at h
  · cases h
    exact ⟨rfl, rfl, rfl⟩
  · cases hparse : Segment.parse text with
    | error reason =>
      rw [hparse] at h
      cases h
      exact ⟨rfl, rfl, rfl⟩
    | ok parsed =>
      simp only [hparse, Cursor.apply_eq] at h
      cases hflaw : (progress.cursor.move parsed).flaw? with
      | some reason =>
        rw [hflaw] at h
        cases h
        exact ⟨rfl, rfl, rfl⟩
      | none =>
        rw [hflaw] at h
        cases h

end Progress

variable {σ : Type} {use : σ → Mapping → Progress → Except Failure σ}
  {holds : Progress → σ → Prop}

/-- What is kept by the beginning of a group, and by a token whose mapping is used. -/
structure Keeps (use : σ → Mapping → Progress → Except Failure σ)
    (holds : Progress → σ → Prop) : Prop where
  startLine : ∀ {progress : Progress} {state : σ} (line : UInt32),
    holds progress state → holds (progress.startLine line) state
  read : ∀ {progress after : Progress} {state next : σ} {line : UInt32} {segment : Nat}
    {text : String} {mapping : Mapping}, holds progress state →
    progress.read line segment text = (.ok mapping, after) →
    use state mapping after = .ok next → holds after next

/-- What the steps of a run keep holds at its end. If the run fails, it holds at the point from
which the last token was read, and no mapping has been used since. -/
theorem Keeps.run_cases (h : Keeps use holds) (steps : List Step) {progress : Progress}
    {state : σ} (hstart : holds progress state) :
    ((run use steps progress state).failure = none ∧
      holds (run use steps progress state).progress (run use steps progress state).state) ∨
    ∃ last failure line segment text, (run use steps progress state).failure = some failure ∧
      holds last (run use steps progress state).state ∧
      (last.read line segment text = (.error failure, (run use steps progress state).progress) ∨
        ∃ mapping, last.read line segment text =
            (.ok mapping, (run use steps progress state).progress) ∧
          use (run use steps progress state).state mapping
            (run use steps progress state).progress = .error failure) := by
  induction steps generalizing progress state with
  | nil => exact Or.inl ⟨rfl, hstart⟩
  | cons step rest ih =>
    cases step with
    | line line => exact ih (h.startLine line hstart)
    | token line segment text =>
      simp only [run]
      rcases hread : progress.read line segment text with ⟨item, after⟩
      cases item with
      | error failure =>
        exact Or.inr ⟨progress, failure, line, segment, text, rfl, hstart, Or.inl hread⟩
      | ok mapping =>
        cases huse : use state mapping after with
        | error failure =>
          simp only [huse]
          exact Or.inr ⟨progress, failure, line, segment, text, rfl, hstart,
            Or.inr ⟨mapping, hread, huse⟩⟩
        | ok next =>
          simp only [huse]
          exact ih (h.read hstart hread huse)

theorem Keeps.run (h : Keeps use holds) {steps : List Step} {progress : Progress} {state : σ}
    (hstart : holds progress state) (hfailure : (run use steps progress state).failure = none) :
    holds (run use steps progress state).progress (run use steps progress state).state := by
  rcases h.run_cases steps hstart with ⟨-, hholds⟩ | ⟨_, _, _, _, _, hfailed, -⟩
  · exact hholds
  · rw [hfailure] at hfailed
    cases hfailed

end Decoder

end SourceMapIndex
