import Mathlib.Algebra.Order.BigOperators.Group.List
import SourceMapIndex.Proofs.Distinct
import SourceMapIndex.Proofs.Mappings.Deltas

/-!
# The order of mappings

The mappings of a mapping string come in the order of the text, so their generated lines
never go back. Their generated columns may: within a group a token moves the column by its
first value, and that value has a sign. If no token but the first of its group moves the
column back, the mappings come in the order of the generated text.

## Main definitions

- `Mappings.StepsForward` — no token leads back in its group

## Main results

- `Mappings.pairwise_generated_line_le` — generated lines never go back
- `Mappings.pairwise_generated_le` — no location goes back if no token steps back
-/

namespace SourceMapIndex

namespace Mappings

/-- The first value of a token is a step from the token before it in its group. No such step
leads back; the first token of a group has none before it. -/
def StepsForward (mappings : String) : Prop :=
  ∀ token ∈ tokens mappings, 0 < token.segment → 0 ≤ token.value 0

theorem pairwise_tokens (mappings : String) :
    (tokens mappings).Pairwise fun t u =>
      t.group < u.group ∨ t.group = u.group ∧ t.segment < u.segment := by
  rw [tokens, List.pairwise_flatMap]
  constructor
  · rintro ⟨text, n⟩ _
    change (tokensOf n text).Pairwise _
    rw [tokensOf, List.pairwise_map]
    exact (Distinct.pairwise_zipIdx_lt _ 0).imp fun h => Or.inr ⟨rfl, h⟩
  · apply (Distinct.pairwise_zipIdx_lt _ 0).imp
    rintro ⟨text, n⟩ ⟨next, m⟩ hlt t ht u hu
    exact Or.inl (by rw [group_of_mem_tokensOf ht, group_of_mem_tokensOf hu]; exact hlt)

theorem group_lt_of_mem_tokens {mappings : String} {token : Token} (h : token ∈ tokens mappings) :
    token.group < (Text.parts ';' mappings).length := by
  obtain ⟨⟨text, n⟩, hgroup, htoken⟩ := List.mem_flatMap.mp h
  obtain ⟨⟨_, i⟩, _, rfl⟩ := List.mem_map.mp htoken
  simpa using (List.mem_zipIdx hgroup).2.1

/-- The yields of a reading are in some order if the judgements of any two of its tokens are,
the one before the other. -/
theorem pairwise_values {α : Type} {judge : List Token → Token → Except Reason α}
    {before tokens : List Token} {r : α → α → Prop}
    (h : ∀ (i j : Nat) (t u : Token) (a b : α), i < j → tokens[i]? = some t →
      tokens[j]? = some u → judge (before ++ tokens.take i) t = .ok a →
      judge (before ++ tokens.take j) u = .ok b → r a b) :
    (readAll judge before tokens).values.Pairwise r := by
  rw [List.pairwise_iff_getElem]
  intro i j hi hj hij
  obtain ⟨t, ht, hjudge⟩ := judge_of_mem_readAll (List.getElem?_eq_getElem hi)
  obtain ⟨u, hu, hlater⟩ := judge_of_mem_readAll (List.getElem?_eq_getElem hj)
  exact h i j t u _ _ hij ht hu hjudge hlater

theorem pairwise_decode {mappings : String} {r : Mapping → Mapping → Prop}
    (h : ∀ (i j : Nat) (t u : Token) (m n : Mapping), i < j →
      (tokens mappings)[i]? = some t → (tokens mappings)[j]? = some u →
      t.Says ((tokens mappings).take i) m → u.Says ((tokens mappings).take j) n → r m n) :
    (decode mappings).state.Pairwise r := by
  rw [(decode_eq_readAll mappings).1]
  apply pairwise_values
  intro i j t u m n hij ht hu hjudge hlater
  exact h i j t u m n hij ht hu (Token.says_of_judge hjudge) (Token.says_of_judge hlater)

/-- Two tokens of a text, the one before the other. -/
theorem order_of_getElem? {mappings : String} {i j : Nat} {t u : Token} (hij : i < j)
    (ht : (tokens mappings)[i]? = some t) (hu : (tokens mappings)[j]? = some u) :
    t.group < u.group ∨ t.group = u.group ∧ t.segment < u.segment := by
  obtain ⟨hi, rfl⟩ := List.getElem?_eq_some_iff.mp ht
  obtain ⟨hj, rfl⟩ := List.getElem?_eq_some_iff.mp hu
  exact List.pairwise_iff_getElem.mp (pairwise_tokens mappings) i j hi hj hij

theorem group_le_of_getElem? {mappings : String} {i j : Nat} {t u : Token} (hij : i ≤ j)
    (ht : (tokens mappings)[i]? = some t) (hu : (tokens mappings)[j]? = some u) :
    t.group ≤ u.group := by
  rcases Nat.lt_or_eq_of_le hij with hlt | rfl
  · have horder := order_of_getElem? hlt ht hu
    omega
  · rw [Option.some.inj (ht.symm.trans hu)]

/-- The generated lines of the mappings never go back, whatever the tokens say. -/
theorem pairwise_generated_line_le (mappings : String) :
    (decode mappings).state.Pairwise fun m n => m.generated.line ≤ n.generated.line := by
  apply pairwise_decode
  intro i j t u m n hij ht hu hm hn
  have hgroup := group_le_of_getElem? (Nat.le_of_lt hij) ht hu
  rw [UInt32.le_iff_toNat_le, hm.generatedLine, hn.generatedLine]
  omega

theorem reached_take {list : List Token} {i : Nat} {token : Token}
    (h : list[i]? = some token) :
    token.reached (list.take i) = sums token.group (list.take (i + 1)) := by
  rw [Token.reached, List.take_add_one, h]
  rfl

/-- The column of a token is not before that of an earlier one of its group, if no token
steps back. -/
theorem reached_le_of_stepsForward {mappings : String} (hforward : StepsForward mappings)
    {i j : Nat} {t u : Token} (hij : i < j) (ht : (tokens mappings)[i]? = some t)
    (hu : (tokens mappings)[j]? = some u) (hgroup : t.group = u.group) :
    (t.reached ((tokens mappings).take i)).generatedColumn ≤
      (u.reached ((tokens mappings).take j)).generatedColumn := by
  -- the later sum has the earlier one in it, and the tokens between do not step back
  let between := ((tokens mappings).drop (i + 1)).take (j - i)
  have hsplit : (tokens mappings).take (j + 1) = (tokens mappings).take (i + 1) ++ between := by
    have hlength : j + 1 = i + 1 + (j - i) := by omega
    rw [hlength, List.take_add]
  have hsteps : ∀ value ∈ (between.filter (·.group == u.group)).map (Token.value 0),
      0 ≤ value := by
    intro value hvalue
    obtain ⟨token, htoken, rfl⟩ := List.mem_map.mp hvalue
    obtain ⟨hbetween, hsame⟩ := List.mem_filter.mp htoken
    rw [beq_iff_eq] at hsame
    obtain ⟨k, hk⟩ := List.getElem?_of_mem (List.mem_of_mem_take hbetween)
    rw [List.getElem?_drop] at hk
    have horder := order_of_getElem? (show i < i + 1 + k by omega) ht hk
    exact hforward token (List.mem_of_getElem? hk) (by omega)
  rw [reached_take ht, reached_take hu, hsplit, hgroup]
  simp only [sums, List.filter_append, List.map_append, List.sum_append]
  have hsum := List.sum_nonneg hsteps
  omega

/-- If no token steps back and the groups can be told apart by words, the mappings come in the
order of the generated text. -/
theorem pairwise_generated_le {mappings : String}
    (hgroups : (Text.parts ';' mappings).length ≤ 4294967296)
    (hforward : StepsForward mappings) :
    (decode mappings).state.Pairwise fun m n => m.generated ≤ n.generated := by
  apply pairwise_decode
  intro i j t u m n hij ht hu hm hn
  have hlast := group_lt_of_mem_tokens (List.mem_of_getElem? hu)
  have hlineM := hm.generatedLine
  have hlineN := hn.generatedLine
  rcases order_of_getElem? hij ht hu with hgroup | ⟨hgroup, -⟩
  · refine Or.inl (UInt32.lt_iff_toNat_lt.mpr ?_)
    omega
  · refine Or.inr ⟨UInt32.toNat_inj.mp (by omega), UInt32.le_iff_toNat_le.mpr ?_⟩
    have hle := reached_le_of_stepsForward hforward hij ht hu hgroup
    rw [← hm.generatedColumn, ← hn.generatedColumn] at hle
    omega

end Mappings

end SourceMapIndex
