import SourceMapIndex.Mappings.Decoding

/-!
# The answers of a decoder

A decoder is asked for one mapping after the other. The same text can be read in one go, by
recursion on the steps ahead. This file shows that the two agree: the answers are the
mappings of the outcome, then its failure if it has one, then nothing for ever.

## Main definitions

- `Decoder.answer` — what a decoder answers when it is asked for the `n`-th time
- `Decoder.collect` — the use of mappings that lists them
- `Decoder.outcome` — what becomes of the steps ahead, read in one go
- `Decoder.Outcome.items` — the mappings and the failure of an outcome in one list

## Main results

- `Decoder.answer_eq_items` — the answers of a decoder are the items of the outcome
- `Decoder.exists_prefix_after` — a decoder comes to the outcomes of the parts of its steps
-/

namespace SourceMapIndex

namespace Decoder

open Mappings (Step)

/-- The decoder after it has been asked `n` times. -/
def after (decoder : Decoder) : Nat → Decoder
  | 0 => decoder
  | n + 1 => decoder.next.2.after n

/-- What the decoder answers when it is asked for the `n`-th time, counted from zero. -/
def answer (decoder : Decoder) (n : Nat) : Option (Except Failure Mapping) :=
  (decoder.after n).next.1

theorem after_succ (decoder : Decoder) (n : Nat) :
    decoder.after (n + 1) = (decoder.after n).next.2 := by
  induction n generalizing decoder with
  | zero => rfl
  | succ n ih => exact ih decoder.next.2

theorem after_add (decoder : Decoder) (m n : Nat) :
    decoder.after (m + n) = (decoder.after m).after n := by
  induction n with
  | zero => rfl
  | succ n ih => rw [← Nat.add_assoc, after_succ, ih, ← after_succ]

/-- A decoder that has nothing ahead stays as it is. -/
theorem after_of_steps_eq_nil {decoder : Decoder} (h : decoder.steps = []) (n : Nat) :
    decoder.after n = decoder := by
  obtain ⟨steps, progress⟩ := decoder
  cases h
  induction n with
  | zero => rfl
  | succ n ih => exact ih

namespace Outcome

def cons (mapping : Mapping) (outcome : Outcome (List Mapping)) : Outcome (List Mapping) :=
  { outcome with state := mapping :: outcome.state }

def prepend (mappings : List Mapping) (outcome : Outcome (List Mapping)) :
    Outcome (List Mapping) :=
  { outcome with state := mappings ++ outcome.state }

/-- The mappings of an outcome, then its failure. -/
def items (outcome : Outcome (List Mapping)) : List (Except Failure Mapping) :=
  outcome.state.map .ok ++ (outcome.failure.map .error).toList

@[simp]
theorem items_cons (mapping : Mapping) (outcome : Outcome (List Mapping)) :
    (outcome.cons mapping).items = .ok mapping :: outcome.items :=
  rfl

end Outcome

/-- What becomes of the steps ahead. -/
def outcome : List Step → Progress → Outcome (List Mapping)
  | [], progress => ⟨[], none, progress⟩
  | .line line :: rest, progress => outcome rest (progress.startLine line)
  | .token line segment text :: rest, progress =>
    match progress.read line segment text with
    | (.error failure, after) => ⟨[], some failure, after⟩
    | (.ok mapping, after) => (outcome rest after).cons mapping

/-- Puts a mapping in front of those before it. -/
def collect (before : List Mapping) (mapping : Mapping) (_ : Progress) :
    Except Failure (List Mapping) :=
  .ok (mapping :: before)

/-- A reading that collects the mappings, the last one first, arrives at the outcome. -/
theorem run_collect (steps : List Step) (progress : Progress) (before : List Mapping) :
    run collect steps progress before =
      { outcome steps progress with state := (outcome steps progress).state.reverse ++ before } := by
  -- every mapping goes in front of those before it, so the state is a reversal
  induction steps generalizing progress before with
  | nil => rfl
  | cons step rest ih =>
    cases step with
    | line line => exact ih (progress.startLine line) before
    | token line segment text =>
      simp only [run, outcome]
      rcases progress.read line segment text with ⟨item, after⟩
      cases item with
      | error failure => rfl
      | ok mapping =>
        simp only [collect]
        rw [ih after (mapping :: before)]
        simp [Outcome.cons]

theorem length_run_collect (steps : List Step) (progress : Progress) :
    (run collect steps progress []).state.length = (outcome steps progress).state.length := by
  rw [run_collect, List.append_nil, List.length_reverse]

theorem decode_eq_outcome (mappings : String) :
    Mappings.decode mappings = outcome (Mappings.steps mappings) {} := by
  change { run collect (Mappings.steps mappings) {} [] with
    state := (run collect (Mappings.steps mappings) {} []).state.reverse } = _
  rw [run_collect]
  simp

theorem answer_nil (progress : Progress) (n : Nat) : answer ⟨[], progress⟩ n = none := by
  induction n with
  | zero => rfl
  | succ n ih => exact ih

theorem answer_line (line : UInt32) (rest : List Step) (progress : Progress) (n : Nat) :
    answer ⟨.line line :: rest, progress⟩ n = answer ⟨rest, progress.startLine line⟩ n := by
  cases n <;> rfl

section Token

variable {progress behind : Progress} {line : UInt32} {segment : Nat} {text : String}

theorem next_token_error {failure : Failure}
    (h : progress.read line segment text = (.error failure, behind)) (rest : List Step) :
    next ⟨.token line segment text :: rest, progress⟩ = (some (.error failure), ⟨[], behind⟩) := by
  simp only [next, advance, h]

theorem next_token_ok {mapping : Mapping}
    (h : progress.read line segment text = (.ok mapping, behind)) (rest : List Step) :
    next ⟨.token line segment text :: rest, progress⟩ = (some (.ok mapping), ⟨rest, behind⟩) := by
  simp only [next, advance, h]

end Token

/-- The answers of a decoder are the items of the outcome, one after the other. -/
theorem answer_eq_items (steps : List Step) (progress : Progress) (n : Nat) :
    answer ⟨steps, progress⟩ n = (outcome steps progress).items[n]? := by
  induction steps generalizing progress n with
  | nil => exact answer_nil progress n
  | cons step rest ih =>
    cases step with
    | line line =>
      rw [answer_line]
      exact ih (progress.startLine line) n
    | token line segment text =>
      -- the first answer is the token's own, the others are those of the decoder behind it
      rcases hread : progress.read line segment text with ⟨item, after⟩
      cases item with
      | error failure =>
        have hnext := next_token_error hread rest
        have hitems : (outcome (.token line segment text :: rest) progress).items =
            [.error failure] := by
          simp only [outcome, hread]
          rfl
        rw [hitems]
        cases n with
        | zero => exact congrArg Prod.fst hnext
        | succ n =>
          change answer (Decoder.next _).2 n = none
          rw [hnext]
          exact answer_nil after n
      | ok mapping =>
        have hnext := next_token_ok hread rest
        have hitems : (outcome (.token line segment text :: rest) progress).items =
            .ok mapping :: (outcome rest after).items := by
          simp only [outcome, hread, Outcome.items_cons]
        rw [hitems]
        cases n with
        | zero => exact congrArg Prod.fst hnext
        | succ n =>
          change answer (Decoder.next _).2 n = (outcome rest after).items[n]?
          rw [hnext]
          exact ih after n

/-- A decoder that was called some times has come to the outcome of a part of its steps. -/
theorem exists_prefix_after (steps : List Step) (progress : Progress) (n : Nat) :
    ∃ before, before <+: steps ∧
      (outcome before progress).progress = (after ⟨steps, progress⟩ n).progress ∧
      (outcome before progress).state = (outcome steps progress).state.take n := by
  induction steps generalizing progress n with
  | nil =>
    refine ⟨[], List.prefix_rfl, ?_, List.take_nil.symm⟩
    rw [after_of_steps_eq_nil rfl]
    rfl
  | cons step rest ih =>
    cases n with
    | zero => exact ⟨[], List.nil_prefix, rfl, List.take_zero.symm⟩
    | succ n =>
      cases step with
      | line line =>
        obtain ⟨before, hprefix, hcome⟩ := ih (progress.startLine line) (n + 1)
        exact ⟨.line line :: before, (List.prefix_cons_inj _).mpr hprefix, hcome⟩
      | token line segment text =>
        rcases hread : progress.read line segment text with ⟨item, behind⟩
        cases item with
        | error failure =>
          refine ⟨[.token line segment text], (List.prefix_cons_inj _).mpr List.nil_prefix, ?_, ?_⟩
          · rw [after, next_token_error hread, after_of_steps_eq_nil rfl]
            simp only [outcome, hread]
          · simp only [outcome, hread, List.take_nil]
        | ok mapping =>
          obtain ⟨before, hprefix, hprogress, hstate⟩ := ih behind n
          refine ⟨.token line segment text :: before, (List.prefix_cons_inj _).mpr hprefix, ?_, ?_⟩
          · rw [after, next_token_ok hread, ← hprogress]
            simp only [outcome, hread, Outcome.cons]
          · simp only [outcome, hread, Outcome.cons, hstate, List.take_succ_cons]

/-- The answers to a mapping string are its mappings, then its failure, then nothing. -/
theorem answer_ofString (mappings : String) (n : Nat) :
    (ofString mappings).answer n = (Mappings.decode mappings).items[n]? := by
  rw [decode_eq_outcome]
  exact answer_eq_items (Mappings.steps mappings) {} n

end Decoder

end SourceMapIndex
