import SourceMapIndex.Proofs.Mappings.Order
import SourceMapIndex.Proofs.Mappings.Runs

/-!
# What a decoder reports between its answers

A decoder that is asked for one mapping after the other can be asked in between how far it has
come: which segment it read last, and how many generated lines it has begun. One call may begin
many groups before it comes to a token. The reports are followed here call by call: behind a
mapping they give the place of its token, and a failure or the end of the text leaves the last
segment as it was.

## Main definitions

- `Decoder.Call` — what a single call can do
- `Decoder.Stands` — a decoder has read some tokens of a mapping string and met no failure
- `Mappings.segmentPlaces` — the places of all tokens of a mapping string
- `Decoder.Reports` — what the reports say from the first call on

## Main results

- `Decoder.call_advance` — a call does one of the three things that it can do
- `Decoder.exists_stands` — after answers without failure the decoder stands in its text
- `Decoder.reports_ofString` — the reports of every decoder
-/

namespace SourceMapIndex

namespace Mappings

/-- The generated line of a token, with its place there. -/
def Token.place (token : Token) : UInt32 × Nat :=
  (Word.saturate token.group, token.segment)

/-- The places of all tokens of a mapping string, in the order of the text. -/
def segmentPlaces (mappings : String) : List (UInt32 × Nat) :=
  (groups mappings).flatMap fun group =>
    (List.range group.tokens.length).map fun i => (group.line, i)

theorem segmentPlaces_eq_map (mappings : String) :
    segmentPlaces mappings = (tokens mappings).map Token.place := by
  rw [segmentPlaces, groups, tokens, List.map_flatMap, List.flatMap_map]
  apply List.flatMap_congr
  rintro ⟨text, n⟩ _
  change (List.range (Text.parts ',' text).length).map (fun i => (Word.saturate n, i)) =
    (tokensOf n text).map Token.place
  rw [List.range_eq_range', ← List.zipIdx_map_snd, tokensOf, List.map_map, List.map_map]
  rfl

/-- Groups that are told apart by words make places that ascend. -/
theorem place_lt_of_getElem? {mappings : String} {i j : Nat} {t u : Token}
    (hgroups : (groups mappings).length ≤ 4294967296) (hij : i < j)
    (ht : (tokens mappings)[i]? = some t) (hu : (tokens mappings)[j]? = some u) :
    Prod.Lex (· < ·) (· < ·) t.place u.place := by
  have hlast := group_lt_of_mem_tokens (List.mem_of_getElem? hu)
  rw [length_groups] at hgroups
  rw [Prod.lex_def]
  rcases order_of_getElem? hij ht hu with hgroup | ⟨hgroup, hsegment⟩
  · refine Or.inl ?_
    change Word.saturate t.group < Word.saturate u.group
    rw [UInt32.lt_iff_toNat_lt, Word.toNat_saturate, Word.toNat_saturate]
    omega
  · exact Or.inr ⟨congrArg Word.saturate hgroup, hsegment⟩

end Mappings

namespace Decoder

open Mappings (InOrder Place Token groups places placesFrom segmentPlaces tokens)

/-! ### One call -/

/-- What a call can do to a progress behind which `begun` groups have begun and the tokens
`before` were read, with some places ahead. -/
inductive Call (begun : Nat) (before : List Token) (ahead : List Place) (progress : Progress) :
    Option (Except Failure Mapping) × Decoder → Prop where
  /-- There is no token ahead; the groups ahead begin. -/
  | ends {after : Progress} (htokens : ahead.filterMap Place.token? = [])
      (hlast : after.lastSegment = progress.lastSegment)
      (hcount : after.lineCount = Word.saturate (begun + (ahead.filter Place.isGroup).length)) :
      Call begun before ahead progress (none, ⟨[], after⟩)
  /-- The next token is refused, and nothing is read any more. -/
  | fails {token : Token} {rest : List Token} {reason : Reason} {after : Progress}
      (htokens : ahead.filterMap Place.token? = token :: rest)
      (hlast : after.lastSegment = progress.lastSegment)
      (hcount : after.lineCount = Word.saturate (token.group + 1)) :
      Call begun before ahead progress (some (.error (token.failure reason)), ⟨[], after⟩)
  /-- The next token is read, and what follows it stays ahead. -/
  | reads {token : Token} {rest : List Place} {mapping : Mapping} {after : Progress}
      (htokens : ahead.filterMap Place.token? = token :: rest.filterMap Place.token?)
      (hgroups : begun + (ahead.filter Place.isGroup).length =
        token.group + 1 + (rest.filter Place.isGroup).length)
      (hjudge : token.judge before = .ok mapping)
      (hlast : after.lastSegment = token.place)
      (horder : InOrder (token.group + 1) rest)
      (hfollows : after.Follows (token.group + 1) (before ++ [token])) :
      Call begun before ahead progress (some (.ok mapping), ⟨rest.map Place.step, after⟩)

section Call

variable {begun : Nat} {before : List Token} {ahead : List Place} {progress : Progress}
  {result : Option (Except Failure Mapping) × Decoder}

/-- A group ahead begins on the way, whatever the call does then. -/
theorem Call.group {line : UInt32}
    (h : Call (begun + 1) before ahead (progress.startLine line) result) :
    Call begun before (.group begun :: ahead) progress result := by
  have hcount : begun + ((Place.group begun :: ahead).filter Place.isGroup).length =
      begun + 1 + (ahead.filter Place.isGroup).length := by
    rw [List.filter_cons_of_pos (by rfl), List.length_cons]
    omega
  cases h with
  | ends htokens hlast hlines => exact .ends htokens hlast (hcount ▸ hlines)
  | fails htokens hlast hlines => exact .fails htokens hlast hlines
  | reads htokens hgroups hjudge hlast horder hfollows =>
    exact .reads htokens (hcount.trans hgroups) hjudge hlast horder hfollows

theorem call_token {token : Token} (h : progress.Follows (token.group + 1) before)
    (horder : InOrder (token.group + 1) ahead) :
    Call (token.group + 1) before (.token token :: ahead) progress
      (advance ((Place.token token :: ahead).map Place.step) progress) := by
  have hread := h.read_eq
  simp only [List.map_cons, Place.step, advance]
  cases hflaw : token.flaw? before with
  | some reason =>
    simp only [hflaw] at hread
    obtain ⟨-, -, hafter⟩ := Progress.of_read_error hread
    have htokens : (Place.token token :: ahead).filterMap Place.token? =
        token :: ahead.filterMap Place.token? := rfl
    rw [hread]
    refine .fails htokens ?_ ?_
    · rw [hafter]
    · rw [hafter]
      exact h.lineCount
  | none =>
    simp only [hflaw] at hread
    rw [hread]
    exact .reads rfl rfl (by simp only [Token.judge, hflaw]) rfl horder (h.accept hflaw)

theorem call_advance (h : progress.Follows begun before) (horder : InOrder begun ahead) :
    Call begun before ahead progress (advance (ahead.map Place.step) progress) := by
  -- over the places ahead, until there is a token among them
  induction ahead generalizing begun progress with
  | nil => exact .ends rfl rfl h.lineCount
  | cons place rest ih =>
    cases place with
    | group number =>
      obtain ⟨rfl, hrest⟩ := horder
      exact (ih h.startLine hrest).group
    | token token =>
      obtain ⟨rfl, hrest⟩ := horder
      exact call_token h hrest

end Call

theorem steps_next_of_no_mapping {decoder : Decoder}
    (h : ∀ mapping, decoder.next.1 ≠ some (.ok mapping)) : decoder.next.2.steps = [] := by
  obtain ⟨steps, progress⟩ := decoder
  induction steps generalizing progress with
  | nil => rfl
  | cons step rest ih =>
    cases step with
    | line line => exact ih (progress.startLine line) h
    | token line segment text =>
      rcases hread : progress.read line segment text with ⟨item, after⟩
      cases item with
      | error failure => rw [next_token_error hread]
      | ok mapping => exact absurd (congrArg Prod.fst (next_token_ok hread rest)) (h mapping)

/-! ### Many calls -/

/-- A decoder has read the first `n` tokens of a mapping string and met no failure. -/
structure Stands (mappings : String) (n begun : Nat) (ahead : List Place) (decoder : Decoder) :
    Prop where
  steps : decoder.steps = ahead.map Place.step
  tokensAhead : (tokens mappings).drop n = ahead.filterMap Place.token?
  groupsAhead : begun + (ahead.filter Place.isGroup).length = (groups mappings).length
  order : InOrder begun ahead
  follows : decoder.progress.Follows begun ((tokens mappings).take n)

theorem stands_ofString (mappings : String) :
    Stands mappings 0 0 (places mappings) (ofString mappings) where
  steps := Mappings.steps_eq_places mappings
  tokensAhead := Mappings.tokens_eq_places mappings
  groupsAhead := by
    rw [places, Mappings.length_groups_placesFrom, Nat.zero_add, Mappings.length_groups]
  order := Mappings.inOrder_placesFrom 0 _
  follows := Progress.follows_start

section Stands

variable {mappings : String} {n begun : Nat} {ahead : List Place} {decoder : Decoder}

theorem Stands.call (h : Stands mappings n begun ahead decoder) :
    Call begun ((tokens mappings).take n) ahead decoder.progress decoder.next := by
  have hcall := call_advance h.follows h.order
  rwa [← h.steps] at hcall

theorem Stands.getElem?_tokens (h : Stands mappings n begun ahead decoder) {token : Token}
    {rest : List Token} (htokens : ahead.filterMap Place.token? = token :: rest) :
    (tokens mappings)[n]? = some token ∧ (tokens mappings).drop (n + 1) = rest := by
  have hdrop := h.tokensAhead.trans htokens
  constructor
  · rw [← List.head?_drop, hdrop, List.head?_cons]
  · rw [← List.tail_drop, hdrop, List.tail_cons]

theorem Stands.reads (h : Stands mappings n begun ahead decoder) {mapping : Mapping}
    (hanswer : decoder.next.1 = some (.ok mapping)) :
    ∃ token rest, (tokens mappings)[n]? = some token ∧
      token.judge ((tokens mappings).take n) = .ok mapping ∧
      decoder.next.2.lastSegment = token.place ∧
      Stands mappings (n + 1) (token.group + 1) rest decoder.next.2 := by
  have hcall := h.call
  rcases hnext : decoder.next with ⟨answer, after⟩
  rw [hnext] at hcall hanswer
  cases hcall with
  | ends => cases hanswer
  | fails => cases hanswer
  | @reads token rest _ _ htokens hgroups hjudge hlast horder hfollows =>
    cases hanswer
    obtain ⟨htoken, hdrop⟩ := h.getElem?_tokens htokens
    refine ⟨token, rest, htoken, hjudge, hlast, ⟨rfl, hdrop, ?_, horder, ?_⟩⟩
    · rw [← h.groupsAhead, hgroups]
    · rw [List.take_add_one, htoken]
      exact hfollows

theorem Stands.fails (h : Stands mappings n begun ahead decoder) {failure : Failure}
    (hanswer : decoder.next.1 = some (.error failure)) :
    ∃ token reason, (tokens mappings)[n]? = some token ∧ failure = token.failure reason ∧
      decoder.next.2.lastSegment = decoder.lastSegment ∧
      decoder.next.2.lineCount = Word.saturate (token.group + 1) := by
  have hcall := h.call
  rcases hnext : decoder.next with ⟨answer, after⟩
  rw [hnext] at hcall hanswer
  cases hcall with
  | ends => cases hanswer
  | @fails token _ reason _ htokens hlast hcount =>
    cases hanswer
    exact ⟨token, reason, (h.getElem?_tokens htokens).1, rfl, hlast, hcount⟩
  | reads => cases hanswer

theorem Stands.ends (h : Stands mappings n begun ahead decoder) (hanswer : decoder.next.1 = none) :
    (tokens mappings).length ≤ n ∧ decoder.next.2.lastSegment = decoder.lastSegment ∧
      decoder.next.2.lineCount = Word.saturate (groups mappings).length := by
  have hcall := h.call
  rcases hnext : decoder.next with ⟨answer, after⟩
  rw [hnext] at hcall hanswer
  cases hcall with
  | ends htokens hlast hcount =>
    rw [h.groupsAhead] at hcount
    exact ⟨List.drop_eq_nil_iff.mp (h.tokensAhead.trans htokens), hlast, hcount⟩
  | fails => cases hanswer
  | reads => cases hanswer

end Stands

/-- Where there is an answer, all answers before it are mappings. -/
theorem exists_answer_of_lt {mappings : String} {n i : Nat} {item : Except Failure Mapping}
    (h : (ofString mappings).answer n = some item) (hi : i < n) :
    ∃ mapping, (ofString mappings).answer i = some (.ok mapping) := by
  rw [Mappings.answer_eq_readAll] at h
  obtain ⟨hn, -⟩ := List.getElem?_eq_some_iff.mp h
  have hone : ((Mappings.readAll Token.judge [] (tokens mappings)).failure.map
      Except.error : Option (Except Failure Mapping)).toList.length ≤ 1 := by
    cases (Mappings.readAll Token.judge [] (tokens mappings)).failure <;> simp
  rw [List.length_append, List.length_map] at hn
  have hlt : i < (Mappings.readAll Token.judge [] (tokens mappings)).values.length := by omega
  obtain ⟨_, mapping, -, hanswer, -⟩ := Mappings.answersAt_of_lt hlt
  exact ⟨mapping, hanswer⟩

/-- As long as the answers are mappings, the decoder stands behind as many tokens. -/
theorem exists_stands {mappings : String} {n : Nat}
    (h : ∀ i < n, ∃ mapping, (ofString mappings).answer i = some (.ok mapping)) :
    ∃ begun ahead, Stands mappings n begun ahead ((ofString mappings).after n) := by
  induction n with
  | zero => exact ⟨0, places mappings, stands_ofString mappings⟩
  | succ n ih =>
    obtain ⟨begun, ahead, hstands⟩ := ih fun i hi => h i (Nat.lt_succ_of_lt hi)
    obtain ⟨mapping, hanswer⟩ := h n (Nat.lt_succ_self n)
    obtain ⟨token, rest, -, -, -, hnext⟩ := hstands.reads hanswer
    rw [after_succ]
    exact ⟨token.group + 1, rest, hnext⟩

/-- What a decoder reports of a mapping string, before the first call and after every call. -/
structure Reports (decoder : Decoder) (mappings : String) : Prop where
  start : decoder.lastSegment = (0, 0) ∧ decoder.lineCount = 0
  /-- Behind a mapping the last segment is that of its token. -/
  reads : ∀ n mapping, decoder.answer n = some (.ok mapping) →
    ∃ token group, (tokens mappings)[n]? = some token ∧
      token.Says ((tokens mappings).take n) mapping ∧
      (groups mappings)[mapping.generated.line.toNat]? = some group ∧
      group.tokens[token.segment]? = some token.text ∧
      (decoder.after (n + 1)).lastSegment = (mapping.generated.line, token.segment) ∧
      (decoder.after (n + 1)).lineCount.toNat =
        min (mapping.generated.line.toNat + 1) 4294967295
  /-- The segments of mappings ascend. -/
  ascends : ∀ i j mapping, i < j → decoder.answer j = some (.ok mapping) →
    Prod.Lex (· < ·) (· < ·) (decoder.after (i + 1)).lastSegment (decoder.after (j + 1)).lastSegment
  /-- No token is left out. -/
  leavesOutNone : ∀ n mapping, decoder.answer n = some (.ok mapping) →
    (List.range (n + 1)).map (fun i => (decoder.after (i + 1)).lastSegment) =
      (segmentPlaces mappings).take (n + 1)
  /-- A failure stands at the next place, which is not reported as read. -/
  fails : ∀ n failure, decoder.answer n = some (.error failure) →
    (segmentPlaces mappings)[n]? = some (failure.line, failure.segment) ∧
      (decoder.after (n + 1)).lastSegment = (decoder.after n).lastSegment ∧
      (decoder.after (n + 1)).lineCount.toNat = min (failure.line.toNat + 1) 4294967295
  /-- The end of a text without failures comes behind all tokens, and all groups have begun. -/
  ends : ∀ n, (∀ i < n, ∃ mapping, decoder.answer i = some (.ok mapping)) →
    decoder.answer n = none →
      n = (segmentPlaces mappings).length ∧
      (decoder.after (n + 1)).lastSegment = (decoder.after n).lastSegment ∧
      (decoder.after (n + 1)).lineCount.toNat = min (groups mappings).length 4294967295
  /-- Behind a failure or the end there is no answer, and nothing changes. -/
  rests : ∀ n, (∀ mapping, decoder.answer n ≠ some (.ok mapping)) →
    ∀ m, n < m → decoder.answer m = none ∧ decoder.after m = decoder.after (n + 1)

section Reports

variable {mappings : String} {n : Nat}

/-- Behind a mapping the decoder stands behind its token, and reports its place. -/
theorem exists_token_of_answer {mapping : Mapping}
    (h : (ofString mappings).answer n = some (.ok mapping)) :
    ∃ token, (tokens mappings)[n]? = some token ∧
      token.Says ((tokens mappings).take n) mapping ∧
      ((ofString mappings).after (n + 1)).lastSegment = token.place ∧
      ((ofString mappings).after (n + 1)).lineCount = Word.saturate (token.group + 1) := by
  obtain ⟨begun, ahead, hstands⟩ := exists_stands fun i => exists_answer_of_lt h
  obtain ⟨token, rest, htoken, hjudge, hlast, hnext⟩ := hstands.reads h
  rw [after_succ]
  exact ⟨token, htoken, Token.says_of_judge hjudge, hlast, hnext.follows.lineCount⟩

theorem map_lastSegment_after {mapping : Mapping}
    (h : (ofString mappings).answer n = some (.ok mapping)) :
    (List.range (n + 1)).map (fun i => ((ofString mappings).after (i + 1)).lastSegment) =
      (segmentPlaces mappings).take (n + 1) := by
  have heach : ∀ i ≤ n, ((segmentPlaces mappings)[i]?) =
      some ((ofString mappings).after (i + 1)).lastSegment := by
    intro i hi
    have hanswer : ∃ mapping, (ofString mappings).answer i = some (.ok mapping) := by
      rcases Nat.lt_or_eq_of_le hi with hlt | rfl
      · exact exists_answer_of_lt h hlt
      · exact ⟨mapping, h⟩
    obtain ⟨_, hanswer⟩ := hanswer
    obtain ⟨token, htoken, -, hlast, -⟩ := exists_token_of_answer hanswer
    rw [Mappings.segmentPlaces_eq_map, List.getElem?_map, htoken, hlast]
    rfl
  apply List.ext_getElem?
  intro i
  rw [List.getElem?_map, List.getElem?_take]
  by_cases hi : i < n + 1
  · rw [if_pos hi, heach i (Nat.le_of_lt_succ hi), List.getElem?_range hi]
    rfl
  · rw [if_neg hi, List.getElem?_eq_none (by simpa using Nat.le_of_not_lt hi)]
    rfl

/-- If the groups of a mapping string can be told apart by words, the reports of its decoder are
true at every time: behind each mapping they give the place of its token, one token after the
other, and a failure or the end changes the number of lines alone. -/
theorem reports_ofString (h : (groups mappings).length ≤ 4294967296) :
    (ofString mappings).Reports mappings where
  start := ⟨rfl, rfl⟩
  reads := by
    intro n mapping hanswer
    obtain ⟨token, htoken, hmeaning, hlast, hcount⟩ := exists_token_of_answer hanswer
    obtain ⟨group, hgroup, htext⟩ :=
      Mappings.exists_group_of_mem_tokens (List.mem_of_getElem? htoken)
    obtain ⟨hlt, -⟩ := List.getElem?_eq_some_iff.mp hgroup
    have hline : mapping.generated.line = Word.saturate token.group := by
      rw [← UInt32.toNat_inj, hmeaning.generatedLine, Word.toNat_saturate]
    have hnumber : mapping.generated.line.toNat = token.group := by
      rw [hmeaning.generatedLine]
      omega
    refine ⟨token, group, htoken, hmeaning, hnumber ▸ hgroup, htext, ?_, ?_⟩
    · rw [hlast, hline]
      rfl
    · rw [hcount, Word.toNat_saturate, hnumber]
  ascends := by
    intro i j mapping hij hanswer
    obtain ⟨_, hearlier⟩ := exists_answer_of_lt hanswer hij
    obtain ⟨t, ht, -, hfirst, -⟩ := exists_token_of_answer hearlier
    obtain ⟨u, hu, -, hlast, -⟩ := exists_token_of_answer hanswer
    rw [hfirst, hlast]
    exact Mappings.place_lt_of_getElem? h hij ht hu
  leavesOutNone := fun n mapping => map_lastSegment_after
  fails := by
    intro n failure hanswer
    obtain ⟨begun, ahead, hstands⟩ := exists_stands fun i => exists_answer_of_lt hanswer
    obtain ⟨token, reason, htoken, rfl, hlast, hcount⟩ := hstands.fails hanswer
    rw [after_succ]
    refine ⟨?_, hlast, ?_⟩
    · rw [Mappings.segmentPlaces_eq_map, List.getElem?_map, htoken]
      rfl
    · have hline : (token.failure reason).line.toNat = min token.group 4294967295 :=
        Word.toNat_saturate token.group
      rw [hcount, Word.toNat_saturate, hline]
      omega
  ends := by
    intro n hbefore hanswer
    obtain ⟨begun, ahead, hstands⟩ := exists_stands hbefore
    obtain ⟨hlength, hlast, hcount⟩ := hstands.ends hanswer
    rw [after_succ]
    refine ⟨?_, hlast, ?_⟩
    · rw [Mappings.segmentPlaces_eq_map, List.length_map]
      refine Nat.le_antisymm ?_ hlength
      -- every call before has read a token of its own
      cases n with
      | zero => exact Nat.zero_le _
      | succ n =>
        obtain ⟨_, hprevious⟩ := hbefore n (Nat.lt_succ_self n)
        obtain ⟨_, htoken, -⟩ := exists_token_of_answer hprevious
        exact (List.getElem?_eq_some_iff.mp htoken).1
    · rw [hcount, Word.toNat_saturate]
  rests := by
    intro n hanswer m hm
    have hsteps : ((ofString mappings).after (n + 1)).steps = [] := by
      rw [after_succ]
      exact steps_next_of_no_mapping hanswer
    have hafter : (ofString mappings).after m = (ofString mappings).after (n + 1) := by
      obtain ⟨k, rfl⟩ := Nat.exists_eq_add_of_le (Nat.succ_le_of_lt hm)
      rw [after_add]
      exact after_of_steps_eq_nil hsteps k
    refine ⟨?_, hafter⟩
    rw [answer, hafter, next, hsteps]
    rfl

/-- The third call begins two groups and fails: the last segment is still that of the second
mapping, in the second of four lines. -/
theorem reports_ofString_below_zero :
    (groups ";AAAA,C;;D").length ≤ 4294967296 ∧ (ofString ";AAAA,C;;D").Reports ";AAAA,C;;D" ∧
      (ofString ";AAAA,C;;D").answer 2 =
        some (.error ⟨.positionOutOfRange .generatedColumn (-1), 3, 0⟩) ∧
      (List.range 5).map (fun n => ((ofString ";AAAA,C;;D").after n).lastSegment) =
        [(0, 0), (1, 0), (1, 1), (1, 1), (1, 1)] ∧
      (List.range 5).map (fun n => ((ofString ";AAAA,C;;D").after n).lineCount) =
        [0, 2, 2, 4, 4] := by
  have hlength : (groups ";AAAA,C;;D").length = 4 := by cbv
  have hgroups : (groups ";AAAA,C;;D").length ≤ 4294967296 := by
    rw [hlength]
    decide
  exact ⟨hgroups, reports_ofString hgroups, by cbv, by cbv, by cbv⟩

end Reports

end Decoder

end SourceMapIndex
