import SourceMapIndex.Proofs.Mappings.Reading
import SourceMapIndex.Proofs.Text.Parts

/-!
# The mappings of a text by sums of its values

Which tokens of a mapping string are refused, and what the others say, can be told from sums
of the values that the tokens spell. No decoder is needed for it: the generated column is a
sum over the tokens of one group, the origin is a sum over all tokens with four or five
values, the name over all tokens with five. Positions are sums as they are. The source and
the name are signed words of sixty-four bits: they are the sums as long as these are signed
words, and that is so for the first `2 ^ 32` tokens at least.

## Main definitions

- `Token.Fails` — a token is no segment, or leads to a position out of range
- `Token.Says` — a mapping is the one that a token stands for
- `Mappings.FailsFirst` — a token fails, and none before it

## Main results

- `answer_eq_sums` — the answers of a decoder, from the first to all that follow the last
- `answer_ne_sums_far_ahead` — a source that has wrapped around
-/

namespace SourceMapIndex

namespace Mappings

namespace Token

/-- A token fails behind the tokens before it: it is empty, it is not a row of integers, it
has a number of values other than one, four and five, or it leads a position out of range. -/
def Fails (before : List Token) (token : Token) : Prop :=
  token.text = "" ∨ (∃ fault, Vlq.decode token.text = .error fault) ∨
    (∃ values, Vlq.decode token.text = .ok values ∧ values.length ∉ [1, 4, 5]) ∨
      ¬(token.reached before).InRange

/-- A mapping says what a token stands for behind the tokens before it. -/
structure Says (before : List Token) (token : Token) (mapping : Mapping) : Prop where
  generatedLine : mapping.generated.line.toNat = min token.group 4294967295
  generatedColumn : (mapping.generated.column.toNat : Int) = (token.reached before).generatedColumn
  source : mapping.source = Word.wrap (sourceTotal (before ++ [token]))
  line : (mapping.origin.line.toNat : Int) = (token.reached before).line
  column : (mapping.origin.column.toNat : Int) = (token.reached before).column
  name : mapping.name =
    if token.hasName then some (Word.wrap (nameTotal (before ++ [token]))) else none
  /-- The first `2 ^ 32` tokens are too few for an index to wrap around. -/
  indices : before.length < 4294967296 →
    mapping.source = sourceTotal (before ++ [token]) ∧
      mapping.name = if token.hasName then some (nameTotal (before ++ [token])) else none

variable {before : List Token} {token : Token}

theorem flaw?_eq_none_iff : token.flaw? before = none ↔ ¬token.Fails before := by
  unfold flaw? Fails
  by_cases hempty : token.text = ""
  · simp [hempty]
  · simp only [hempty, if_false, false_or]
    cases hdecode : Vlq.decode token.text with
    | error fault => simp
    | ok values =>
      by_cases hcount : values.length ∈ [1, 4, 5]
      · simp only [hcount, if_true, Cursor.flaw?_eq_none_iff, reduceCtorEq, exists_false,
          Except.ok.injEq, exists_eq_left', not_true, false_or, Classical.not_not]
      · simp only [hcount, if_false, reduceCtorEq, exists_false, Except.ok.injEq,
          exists_eq_left', not_false_eq_true, true_or, or_true, not_true]

theorem inRange_of_not_fails (h : ¬token.Fails before) : (token.reached before).InRange :=
  Classical.byContradiction fun hrange => h (Or.inr (Or.inr (Or.inr hrange)))

theorem exists_judge_eq_ok_iff :
    (∃ mapping, token.judge before = .ok mapping) ↔ ¬token.Fails before := by
  rw [← flaw?_eq_none_iff]
  unfold judge
  cases token.flaw? before <;> simp

theorem toNat_ofNat_of_fits {value : Int} (h : Word.Fits value) :
    ((UInt32.ofNat value.toNat).toNat : Int) = value := by
  unfold Word.Fits at h
  have hlt : value.toNat < UInt32.size := by
    simp only [UInt32.size]
    omega
  rw [UInt32.toNat_ofNat_of_lt' hlt]
  omega

/-- The mapping that a token is judged to be is the one that it stands for. -/
theorem says_of_judge {mapping : Mapping} (h : token.judge before = .ok mapping) :
    token.Says before mapping := by
  unfold judge at h
  cases hflaw : token.flaw? before with
  | some reason => simp [hflaw] at h
  | none =>
    simp only [hflaw, Except.ok.injEq] at h
    have hrange := inRange_of_not_fails (flaw?_eq_none_iff.mp hflaw)
    rw [← h]
    exact {
      generatedLine := Word.toNat_saturate token.group
      generatedColumn := toNat_ofNat_of_fits hrange.generatedColumn
      source := rfl
      line := toNat_ofNat_of_fits hrange.line
      column := toNat_ofNat_of_fits hrange.column
      name := rfl
      indices := by
        intro hfew
        have hlength : (before ++ [token]).length ≤ 4294967296 := by
          simpa using Nat.succ_le_of_lt hfew
        refine ⟨wrap_sourceTotal hlength, ?_⟩
        rw [← wrap_nameTotal hlength]
        rfl }

end Token

def FailsAt (tokens : List Token) (i : Nat) : Prop :=
  ∃ token, tokens[i]? = some token ∧ token.Fails (tokens.take i)

/-- The token at a place fails, and no token before it does. -/
def FailsFirst (tokens : List Token) (k : Nat) : Prop :=
  FailsAt tokens k ∧ ∀ i < k, ¬FailsAt tokens i

/-- A decoder answers with the mapping that the token at a place stands for. -/
def AnswersAt (mappings : String) (i : Nat) : Prop :=
  ∃ token mapping, (tokens mappings)[i]? = some token ∧
    (Decoder.ofString mappings).answer i = some (.ok mapping) ∧
      token.Says ((tokens mappings).take i) mapping

theorem exists_judge_of_not_failsAt {tokens : List Token} {k : Nat}
    (h : ∀ i < k, ¬FailsAt tokens i) :
    ∀ i < k, ∀ token, tokens[i]? = some token →
      ∃ mapping, Token.judge ([] ++ tokens.take i) token = .ok mapping := by
  intro i hi token htoken
  rw [List.nil_append, Token.exists_judge_eq_ok_iff]
  exact fun hfails => h i hi ⟨token, htoken, hfails⟩

/-- The answers to a mapping string are the yields of its reading, then its failure. -/
theorem answer_eq_readAll (mappings : String) (i : Nat) :
    (Decoder.ofString mappings).answer i =
      ((readAll Token.judge [] (tokens mappings)).values.map .ok ++
        ((readAll Token.judge [] (tokens mappings)).failure.map .error).toList)[i]? := by
  obtain ⟨hstate, hfailure, _⟩ := decode_eq_readAll mappings
  rw [Decoder.answer_ofString, Decoder.Outcome.items, hstate, hfailure]

theorem answersAt_of_lt {mappings : String} {i : Nat}
    (h : i < (readAll Token.judge [] (tokens mappings)).values.length) : AnswersAt mappings i := by
  obtain ⟨token, htoken, hjudge⟩ := judge_of_mem_readAll (List.getElem?_eq_getElem h)
  refine ⟨token, _, htoken, ?_, Token.says_of_judge hjudge⟩
  rw [answer_eq_readAll, List.getElem?_append_left (by simpa using h), List.getElem?_map,
    List.getElem?_eq_getElem h]
  rfl

theorem failure_readAll_of_not_failsAt {tokens : List Token} (h : ∀ k, ¬FailsAt tokens k) :
    (readAll Token.judge [] tokens).failure = none :=
  failure_readAll_eq_none fun i token htoken =>
    exists_judge_of_not_failsAt (fun j _ => h j) i (Nat.lt_succ_self i) token htoken

/-- If no token fails, there is a mapping for each. -/
theorem answersAt_of_not_failsAt {mappings : String} (h : ∀ k, ¬FailsAt (tokens mappings) k) :
    ∀ i < (tokens mappings).length, AnswersAt mappings i := by
  have hlength := length_readAll_of_failure_eq_none (failure_readAll_of_not_failsAt h)
  exact fun i hi => answersAt_of_lt (hlength ▸ hi)

/-- A decoder answers to the tokens one by one. If a token fails, the tokens before the first
that does are answered with mappings whose values are the sums of the values up to them, the
source and the name as signed words; that token is answered with a failure, and then there is
nothing for ever. If none fails, every token is answered with such a mapping, and then there
is nothing. -/
theorem answer_eq_sums (mappings : String) :
    (∀ k, FailsFirst (tokens mappings) k →
      (∀ i < k, AnswersAt mappings i) ∧
        (∃ failure, (Decoder.ofString mappings).answer k = some (.error failure)) ∧
          ∀ i, k < i → (Decoder.ofString mappings).answer i = none) ∧
    ((∀ k, ¬FailsAt (tokens mappings) k) →
      (∀ i < (tokens mappings).length, AnswersAt mappings i) ∧
        ∀ i, (tokens mappings).length ≤ i → (Decoder.ofString mappings).answer i = none) := by
  constructor
  · rintro k ⟨⟨token, htoken, hfails⟩, hbefore⟩
    have hjudge : ∃ reason, token.judge ([] ++ (tokens mappings).take k) = .error reason := by
      cases hjudge : token.judge ([] ++ (tokens mappings).take k) with
      | error reason => exact ⟨reason, rfl⟩
      | ok mapping => exact absurd hfails (Token.exists_judge_eq_ok_iff.mp ⟨mapping, hjudge⟩)
    obtain ⟨reason, hreason⟩ := hjudge
    obtain ⟨hlength, hfailure⟩ :=
      readAll_of_first_error htoken (exists_judge_of_not_failsAt hbefore) hreason
    -- the answers are `k` mappings and the failure, so `k` is the place of the failure
    refine ⟨fun i hi => answersAt_of_lt (hlength ▸ hi), ⟨token.failure reason, ?_⟩, ?_⟩
    · rw [answer_eq_readAll, hfailure, List.getElem?_append_right (by simp [hlength])]
      simp [hlength]
    · intro i hi
      rw [answer_eq_readAll, hfailure, List.getElem?_eq_none]
      simp [hlength]
      omega
  · intro hnone
    have hfailure := failure_readAll_of_not_failsAt hnone
    have hlength := length_readAll_of_failure_eq_none hfailure
    refine ⟨answersAt_of_not_failsAt hnone, ?_⟩
    intro i hi
    rw [answer_eq_readAll, hfailure, List.getElem?_eq_none]
    simpa [hlength] using hi

/-! ### A source that wraps around -/

/-- A token of the first group that goes as far ahead among the sources as a token can, and
nowhere else. -/
def Token.ahead (segment : Nat) : Token :=
  ⟨0, segment, "A+/////DAA"⟩

/-- Such tokens, one after the other. -/
def rowAhead (n : Nat) : List Token :=
  (List.range n).map Token.ahead

def textAhead (n : Nat) : String :=
  Text.join ',' (List.replicate n "A+/////DAA")

theorem Token.decode_ahead (segment : Nat) :
    Vlq.decode (ahead segment).text = .ok (Segment.full 0 2147483647 0 0).fields := by
  change Vlq.decode "A+/////DAA" = .ok [0, 2147483647, 0, 0]
  cbv

theorem rowAhead_succ (n : Nat) : rowAhead (n + 1) = rowAhead n ++ [Token.ahead n] := by
  simp [rowAhead, List.range_succ]

theorem take_rowAhead {k n : Nat} (h : k ≤ n) : (rowAhead n).take k = rowAhead k := by
  rw [rowAhead, ← List.map_take, List.take_range, Nat.min_eq_left h, rowAhead]

theorem getElem?_rowAhead {k n : Nat} (h : k < n) : (rowAhead n)[k]? = some (Token.ahead k) := by
  simp [rowAhead, h]

theorem parts_textAhead {n : Nat} (hn : n ≠ 0) :
    Text.parts ',' (textAhead n) = List.replicate n "A+/////DAA" ∧
      Text.parts ';' (textAhead n) = [textAhead n] := by
  have hfree : ∀ c ∈ [',', ';'], ∀ text ∈ List.replicate n "A+/////DAA", c ∉ text.toList := by
    intro c hc text htext
    rw [List.eq_of_mem_replicate htext]
    rcases List.mem_pair.mp hc with rfl | rfl <;> decide
  have htexts : "" ∉ List.replicate n "A+/////DAA" := fun hmem =>
    absurd (List.eq_of_mem_replicate hmem) (by decide)
  have hsingle : List.replicate n "A+/////DAA" ≠ [""] := fun heq => htexts (by simp [heq])
  have hblank : textAhead n ≠ "" := by
    rw [textAhead, Ne, Text.join_eq_empty_iff]
    exact not_or.mpr ⟨by simpa using hn, hsingle⟩
  refine ⟨Text.parts_join (hfree ',' (by simp)) hsingle, ?_⟩
  have hjoin : Text.join ';' [textAhead n] = textAhead n := by simp [Text.join]
  have hgroup : ';' ∉ (textAhead n).toList :=
    Text.not_mem_join (by decide) (hfree ';' (by simp))
  rw [← hjoin, Text.parts_join (by simpa [hjoin] using hgroup) (by simpa [hjoin] using hblank),
    hjoin]

theorem tokens_textAhead {n : Nat} (hn : n ≠ 0) : tokens (textAhead n) = rowAhead n := by
  obtain ⟨hcommas, hsemicolons⟩ := parts_textAhead hn
  rw [tokens, hsemicolons]
  simp only [List.zipIdx_cons, List.zipIdx_nil, List.flatMap_cons, List.flatMap_nil,
    List.append_nil, tokensOf, hcommas]
  apply List.ext_getElem <;> simp [rowAhead, Token.ahead]

/-- The steps lead to a source, and nowhere else. -/
theorem sums_rowAhead (n : Nat) :
    sums 0 (rowAhead n) = { source := Word.wrap (n * 2147483647) } := by
  induction n with
  | zero => rfl
  | succ n ih =>
    have hbefore : sums (Token.ahead n).group (rowAhead n) = _ := ih
    have hmoved := Token.reached_eq (hbefore ▸ Cursor.inRange_source _) (Token.decode_ahead n)
    rw [Token.reached, ← rowAhead_succ, hbefore] at hmoved
    refine hmoved.trans ?_
    simp [Cursor.move, Int.add_mul]

theorem sourceTotal_rowAhead (n : Nat) : sourceTotal (rowAhead n) = n * 2147483647 := by
  induction n with
  | zero => rfl
  | succ n ih =>
    have hvalues := Token.values_of_fields (Token.decode_ahead n)
    rw [rowAhead_succ, sourceTotal, List.filter_append, List.map_append, List.sum_append,
      ← sourceTotal, ih]
    simp [Token.hasOrigin, Token.value, hvalues, Segment.fields, Int.add_mul]

theorem not_failsAt_rowAhead (n k : Nat) : ¬FailsAt (rowAhead n) k := by
  rintro ⟨token, htoken, hfails⟩
  have hk : k < n := by
    simpa [rowAhead] using (List.getElem?_eq_some_iff.mp htoken).1
  rw [getElem?_rowAhead hk] at htoken
  cases htoken
  rw [take_rowAhead hk.le] at hfails
  have hdecode := Token.decode_ahead k
  rcases hfails with hempty | ⟨fault, hfault⟩ | ⟨values, hvalues, hcount⟩ | hrange
  · exact absurd hempty (show "A+/////DAA" ≠ "" by decide)
  · cases hdecode.symm.trans hfault
  · cases hdecode.symm.trans hvalues
    exact hcount (by decide)
  · have hsums : sums (Token.ahead k).group (rowAhead (k + 1)) = _ := sums_rowAhead (k + 1)
    rw [Token.reached, ← rowAhead_succ, hsums] at hrange
    exact hrange (Cursor.inRange_source _)

/-- A token at some place of the row is answered with the signed word that the steps up to it
come to. -/
theorem answer_textAhead {n k : Nat} (h : k < n) :
    ∃ mapping, (Decoder.ofString (textAhead n)).answer k = some (.ok mapping) ∧
      mapping.source = Word.wrap ((k + 1 : Nat) * 2147483647) := by
  have htokens : tokens (textAhead n) = rowAhead n := tokens_textAhead (by omega)
  obtain ⟨token, mapping, htoken, hanswer, hstands⟩ :=
    @answersAt_of_not_failsAt (textAhead n) (htokens ▸ not_failsAt_rowAhead n) k
      (by simpa [htokens, rowAhead] using h)
  refine ⟨mapping, hanswer, ?_⟩
  rw [htokens, getElem?_rowAhead h] at htoken
  cases htoken
  rw [hstands.source, htokens, take_rowAhead h.le, ← rowAhead_succ, sourceTotal_rowAhead]

/-- No token fails, but so many steps ahead add up to more than a signed word, and the source
of the last token is not what they add up to. -/
theorem answer_ne_sums_far_ahead :
    let mappings := textAhead 4294967299
    (∀ k, ¬FailsAt (tokens mappings) k) ∧
      ∃ token mapping, (tokens mappings)[4294967298]? = some token ∧
        (Decoder.ofString mappings).answer 4294967298 = some (.ok mapping) ∧
          sourceTotal ((tokens mappings).take 4294967298 ++ [token]) = 9223372039002259453 ∧
            mapping.source = -9223372034707292163 := by
  intro mappings
  have htokens : tokens mappings = rowAhead 4294967299 := tokens_textAhead (by omega)
  have hlast : 4294967298 < 4294967299 := by omega
  obtain ⟨mapping, hanswer, hsource⟩ := answer_textAhead hlast
  rw [htokens]
  refine ⟨not_failsAt_rowAhead _, Token.ahead 4294967298, mapping, getElem?_rowAhead hlast,
    hanswer, ?_, ?_⟩
  · rw [take_rowAhead hlast.le, ← rowAhead_succ, sourceTotal_rowAhead]
    decide
  · rw [hsource]
    decide

end Mappings

end SourceMapIndex
