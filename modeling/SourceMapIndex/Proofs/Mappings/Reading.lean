import SourceMapIndex.Proofs.Mappings.Sums

/-!
# Readings as judgements of tokens

A reading of a mapping string takes its tokens one by one, in the order of the text, and
ends at the first that is refused. Whether a token is refused hangs on the tokens before it
and on the token alone. This file reads lists of tokens by such a judgement and shows that a
decoder whose mappings are passed on, to a list or to an index, does just that.

## Main definitions

- `Token.judge` — the mapping of a token behind others, or why it is refused
- `Mappings.readAll` — the judgements of some tokens up to the first refusal
- `Decoder.passOn` — a use of mappings that converts every mapping and adds it to a state

## Main results

- `Decoder.run_passOn` — a run of the decoder is a reading of the tokens
- `Mappings.decode_eq_readAll` — so are the mappings of a mapping string
-/

namespace SourceMapIndex

namespace Mappings

/-- The mapping of a token behind the tokens before it, or why it is refused. -/
def Token.judge (before : List Token) (token : Token) : Except Reason Mapping :=
  match token.flaw? before with
  | some reason => .error reason
  | none => .ok (token.mapping before)

/-- What a reading of tokens has yielded, and the failure that ended it, if any. -/
structure Reading (α : Type) where
  values : List α
  failure : Option Failure

variable {α : Type} (judge : List Token → Token → Except Reason α)

/-- The judgements of some tokens behind the tokens before them, up to the first refusal. -/
def readAll (before : List Token) : List Token → Reading α
  | [] => ⟨[], none⟩
  | token :: rest =>
    match judge before token with
    | .error reason => ⟨[], some (token.failure reason)⟩
    | .ok value =>
      let after := readAll (before ++ [token]) rest
      ⟨value :: after.values, after.failure⟩

variable {judge}

theorem readAll_cons_error {before : List Token} {token : Token} {reason : Reason}
    (h : judge before token = .error reason) (rest : List Token) :
    readAll judge before (token :: rest) = ⟨[], some (token.failure reason)⟩ := by
  simp only [readAll, h]

theorem readAll_cons_ok {before : List Token} {token : Token} {value : α}
    (h : judge before token = .ok value) (rest : List Token) :
    readAll judge before (token :: rest) =
      ⟨value :: (readAll judge (before ++ [token]) rest).values,
        (readAll judge (before ++ [token]) rest).failure⟩ := by
  simp only [readAll, h]

/-- Every yield of a reading is the judgement of the token at the same place. -/
theorem judge_of_mem_readAll {before tokens : List Token} {i : Nat} {value : α}
    (h : (readAll judge before tokens).values[i]? = some value) :
    ∃ token, tokens[i]? = some token ∧ judge (before ++ tokens.take i) token = .ok value := by
  induction tokens generalizing before i with
  | nil => simp [readAll] at h
  | cons token rest ih =>
    cases hjudge : judge before token with
    | error reason =>
      rw [readAll_cons_error hjudge] at h
      simp at h
    | ok first =>
      rw [readAll_cons_ok hjudge] at h
      cases i with
      | zero =>
        simp only [List.getElem?_cons_zero, Option.some.injEq] at h
        exact ⟨token, rfl, by simpa [h] using hjudge⟩
      | succ i =>
        obtain ⟨found, hfound, hvalue⟩ := ih h
        exact ⟨found, hfound, by simpa using hvalue⟩

theorem readAll_cons_of_failure_eq_none {before : List Token} {token : Token} {rest : List Token}
    (h : (readAll judge before (token :: rest)).failure = none) :
    ∃ value, judge before token = .ok value ∧
      (readAll judge (before ++ [token]) rest).failure = none := by
  cases hjudge : judge before token with
  | error reason =>
    rw [readAll_cons_error hjudge] at h
    cases h
  | ok value =>
    rw [readAll_cons_ok hjudge] at h
    exact ⟨value, rfl, h⟩

/-- If every token yields something, what hangs on the token alone can be read off the yields,
token by token. -/
theorem map_values_of_failure_eq_none {β : Type} {before tokens : List Token} {f : α → β}
    {g : Token → β} (h : (readAll judge before tokens).failure = none)
    (hvalue : ∀ before token value, judge before token = .ok value → f value = g token) :
    (readAll judge before tokens).values.map f = tokens.map g := by
  induction tokens generalizing before with
  | nil => rfl
  | cons token rest ih =>
    obtain ⟨value, hjudge, hrest⟩ := readAll_cons_of_failure_eq_none h
    rw [readAll_cons_ok hjudge, List.map_cons, List.map_cons, ih hrest, hvalue _ _ _ hjudge]

theorem length_readAll_of_failure_eq_none {before tokens : List Token}
    (h : (readAll judge before tokens).failure = none) :
    (readAll judge before tokens).values.length = tokens.length := by
  have hunits := map_values_of_failure_eq_none (f := fun _ => ()) (g := fun _ => ()) h
    fun _ _ _ _ => rfl
  simpa using congrArg List.length hunits

theorem exists_judge_of_failure_eq_none {before tokens : List Token}
    (h : (readAll judge before tokens).failure = none) {i : Nat} {token : Token}
    (htoken : tokens[i]? = some token) :
    ∃ value, judge (before ++ tokens.take i) token = .ok value := by
  obtain ⟨hi, _⟩ := List.getElem?_eq_some_iff.mp htoken
  rw [← length_readAll_of_failure_eq_none h] at hi
  obtain ⟨found, hfound, hjudge⟩ := judge_of_mem_readAll (List.getElem?_eq_getElem hi)
  rw [Option.some.inj (htoken.symm.trans hfound)]
  exact ⟨_, hjudge⟩

theorem failure_readAll_eq_none {before tokens : List Token}
    (h : ∀ i token, tokens[i]? = some token →
      ∃ value, judge (before ++ tokens.take i) token = .ok value) :
    (readAll judge before tokens).failure = none := by
  induction tokens generalizing before with
  | nil => rfl
  | cons token rest ih =>
    obtain ⟨value, hvalue⟩ := h 0 token rfl
    rw [List.take_zero, List.append_nil] at hvalue
    rw [readAll_cons_ok hvalue]
    apply ih
    intro i found hfound
    simpa using h (i + 1) found hfound

/-- The first token that is refused ends the reading. -/
theorem readAll_of_first_error {before tokens : List Token} {k : Nat} {token : Token}
    {reason : Reason} (htoken : tokens[k]? = some token)
    (hbefore : ∀ i < k, ∀ token, tokens[i]? = some token →
      ∃ value, judge (before ++ tokens.take i) token = .ok value)
    (hreason : judge (before ++ tokens.take k) token = .error reason) :
    (readAll judge before tokens).values.length = k ∧
      (readAll judge before tokens).failure = some (token.failure reason) := by
  induction tokens generalizing before k with
  | nil => simp at htoken
  | cons first rest ih =>
    cases k with
    | zero =>
      simp only [List.getElem?_cons_zero, Option.some.injEq] at htoken
      rw [List.take_zero, List.append_nil, ← htoken] at hreason
      rw [readAll_cons_error hreason, htoken]
      exact ⟨rfl, rfl⟩
    | succ k =>
      obtain ⟨value, hvalue⟩ := hbefore 0 (Nat.zero_lt_succ k) first rfl
      rw [List.take_zero, List.append_nil] at hvalue
      rw [readAll_cons_ok hvalue]
      have hrest : ∀ i < k, ∀ token, rest[i]? = some token →
          ∃ value, judge (before ++ [first] ++ rest.take i) token = .ok value := by
        intro i hi found hfound
        simpa using hbefore (i + 1) (Nat.succ_lt_succ hi) found hfound
      obtain ⟨hlength, hfailure⟩ := ih htoken hrest (by simpa using hreason)
      exact ⟨congrArg Nat.succ hlength, hfailure⟩

/-- A reading fails at the first token that is refused. -/
theorem exists_of_failure_readAll {before tokens : List Token} {failure : Failure}
    (h : (readAll judge before tokens).failure = some failure) :
    ∃ k token reason, tokens[k]? = some token ∧ failure = token.failure reason ∧
      (∀ i < k, ∀ token, tokens[i]? = some token →
        ∃ value, judge (before ++ tokens.take i) token = .ok value) ∧
      judge (before ++ tokens.take k) token = .error reason := by
  induction tokens generalizing before with
  | nil => cases h
  | cons first rest ih =>
    cases hjudge : judge before first with
    | error reason =>
      rw [readAll_cons_error hjudge] at h
      exact ⟨0, first, reason, rfl, (Option.some.inj h).symm, by simp, by simpa using hjudge⟩
    | ok value =>
      rw [readAll_cons_ok hjudge] at h
      obtain ⟨k, token, reason, htoken, hfailure, hbefore, hreason⟩ := ih h
      refine ⟨k + 1, token, reason, htoken, hfailure, ?_, by simpa using hreason⟩
      intro i hi found hfound
      cases i with
      | zero =>
        rw [← Option.some.inj hfound]
        exact ⟨value, by simpa using hjudge⟩
      | succ i => simpa using hbefore i (Nat.lt_of_succ_lt_succ hi) found hfound

section Prefix

variable {found others : List Token} {i n : Nat} (htake : others.take n = found.take n)

include htake

theorem getElem?_of_take_eq (hi : i < n) : others[i]? = found[i]? := by
  rw [← List.getElem?_take_of_lt hi, htake, List.getElem?_take_of_lt hi]

theorem take_of_take_eq (hi : i < n) : others.take i = found.take i := by
  have hfirst := congrArg (List.take i) htake
  rwa [List.take_take, List.take_take, Nat.min_eq_left (Nat.le_of_lt hi)] at hfirst

end Prefix

end Mappings

namespace Decoder

open Mappings (Place InOrder Token Reading readAll readAll_cons_error readAll_cons_ok)

variable {σ ρ : Type}

/-- Converts a mapping and adds it to a state. A mapping that cannot be converted fails at
the segment that was read last, which is its own. -/
def passOn (convert : Mapping → Except Reason ρ) (add : σ → ρ → σ) (state : σ)
    (mapping : Mapping) (progress : Progress) : Except Failure σ :=
  match convert mapping with
  | .error reason => .error ⟨reason, progress.lastSegment.1, progress.lastSegment.2⟩
  | .ok value => .ok (add state value)

/-- The judgement of a token whose mapping is converted afterwards. -/
def judgeBy (convert : Mapping → Except Reason ρ) (before : List Token) (token : Token) :
    Except Reason ρ :=
  (token.judge before).bind convert

section Judgement

variable {convert : Mapping → Except Reason ρ} {before : List Token} {token : Token}

theorem judgeBy_of_flaw {reason : Reason} (h : token.flaw? before = some reason) :
    judgeBy convert before token = .error reason := by
  simp only [judgeBy, Token.judge, h, Except.bind]

theorem judgeBy_of_flaw_eq_none (h : token.flaw? before = none) :
    judgeBy convert before token = convert (token.mapping before) := by
  simp only [judgeBy, Token.judge, h, Except.bind]

end Judgement

/-- If every token yields something, the yields are the conversions of the mappings. -/
theorem readAll_judgeBy {convert : Mapping → Except Reason ρ} {before tokens : List Token}
    (h : (readAll (judgeBy convert) before tokens).failure = none) :
    (readAll Token.judge before tokens).failure = none ∧
      (readAll Token.judge before tokens).values.map convert =
        (readAll (judgeBy convert) before tokens).values.map .ok := by
  induction tokens generalizing before with
  | nil => exact ⟨rfl, rfl⟩
  | cons token rest ih =>
    obtain ⟨value, hconvert, hrest⟩ := Mappings.readAll_cons_of_failure_eq_none h
    cases hjudge : token.judge before with
    | error reason => simp [judgeBy, hjudge, Except.bind] at hconvert
    | ok mapping =>
      have hvalue : convert mapping = .ok value := by
        simpa only [judgeBy, hjudge, Except.bind] using hconvert
      obtain ⟨hfailure, hvalues⟩ := ih hrest
      rw [readAll_cons_ok hjudge, readAll_cons_ok hconvert]
      refine ⟨hfailure, ?_⟩
      rw [List.map_cons, List.map_cons, hvalue, hvalues]

/-- A run that passes its mappings on reads the tokens at the places ahead. -/
theorem run_passOn (convert : Mapping → Except Reason ρ) (add : σ → ρ → σ) {begun : Nat}
    {before : List Token} {progress : Progress} {places : List Place}
    (hprogress : progress.Follows begun before) (horder : InOrder begun places) (state : σ) :
    let ended := run (passOn convert add) (places.map Place.step) progress state
    let read := readAll (judgeBy convert) before (places.filterMap Place.token?)
    ended.state = read.values.foldl add state ∧ ended.failure = read.failure ∧
      (read.failure = none → ended.progress.lineCount =
        Word.saturate (begun + (places.filter Place.isGroup).length)) := by
  -- over the places ahead: what was read before them is in the agreement and in the state
  induction places generalizing begun before progress state with
  | nil => exact ⟨rfl, rfl, fun _ => hprogress.lineCount⟩
  | cons place rest ih =>
    cases place with
    | group number =>
      obtain ⟨rfl, hrest⟩ := horder
      have hcount : number + ((Place.group number :: rest).filter Place.isGroup).length =
          number + 1 + (rest.filter Place.isGroup).length := by
        simp only [List.filter_cons, Place.isGroup, if_true, List.length_cons]
        omega
      rw [hcount]
      exact ih hprogress.startLine hrest state
    | token token =>
      obtain ⟨rfl, hrest⟩ := horder
      have hread := hprogress.read_eq
      have htokens : (Place.token token :: rest).filterMap Place.token? =
          token :: rest.filterMap Place.token? := rfl
      have hgroups : (Place.token token :: rest).filter Place.isGroup =
          rest.filter Place.isGroup := rfl
      simp only [List.map_cons, Place.step, run, hread, htokens, hgroups]
      -- a token is refused by the decoder or by the conversion, and both end the reading
      cases hflaw : token.flaw? before with
      | some reason =>
        rw [readAll_cons_error (judgeBy_of_flaw hflaw)]
        exact ⟨rfl, rfl, by simp⟩
      | none =>
        have hbind : judgeBy convert before token = convert (token.mapping before) :=
          judgeBy_of_flaw_eq_none hflaw
        simp only [passOn]
        cases hconvert : convert (token.mapping before) with
        | error reason =>
          rw [readAll_cons_error (hbind.trans hconvert)]
          exact ⟨rfl, rfl, by simp⟩
        | ok value =>
          rw [readAll_cons_ok (hbind.trans hconvert)]
          exact ih (hprogress.accept hflaw) hrest (add state value)

theorem run_steps_passOn (convert : Mapping → Except Reason ρ) (add : σ → ρ → σ)
    (mappings : String) (state : σ) :
    let ended := run (passOn convert add) (Mappings.steps mappings) {} state
    let read := readAll (judgeBy convert) [] (Mappings.tokens mappings)
    ended.state = read.values.foldl add state ∧ ended.failure = read.failure ∧
      (read.failure = none →
        ended.progress.lineCount = Word.saturate (Text.parts ';' mappings).length) := by
  have hrun := run_passOn convert add Progress.follows_start
    (Mappings.inOrder_placesFrom 0 (Text.parts ';' mappings)) state
  rw [Mappings.length_groups_placesFrom, Nat.zero_add] at hrun
  rw [Mappings.steps_eq_places, Mappings.tokens_eq_places]
  exact hrun

end Decoder

namespace Mappings

/-- The mappings of a mapping string are the judgements of its tokens. -/
theorem decode_eq_readAll (mappings : String) :
    let read := readAll Token.judge [] (tokens mappings)
    (decode mappings).state = read.values ∧ (decode mappings).failure = read.failure ∧
      (read.failure = none →
        (decode mappings).progress.lineCount = Word.saturate (Text.parts ';' mappings).length) := by
  have hcollect : (fun before mapping _ => .ok (mapping :: before)) =
      Decoder.passOn .ok (fun before mapping => mapping :: before) := rfl
  have hjudge : Decoder.judgeBy .ok = Token.judge := by
    funext before token
    simp only [Decoder.judgeBy]
    cases token.judge before <;> rfl
  obtain ⟨hstate, hfailure, hcount⟩ := Decoder.run_steps_passOn .ok
    (fun before mapping => mapping :: before) mappings []
  rw [hjudge] at hstate hfailure hcount
  refine ⟨?_, hfailure, hcount⟩
  simp only [decode, hcollect, hstate]
  rw [List.foldl_flip_cons_eq_append']
  simp

end Mappings

end SourceMapIndex
