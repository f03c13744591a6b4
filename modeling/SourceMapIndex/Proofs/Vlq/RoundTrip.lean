import Mathlib
import SourceMapIndex.Proofs.Vlq.Grammar
import SourceMapIndex.Vlq.Encoding

/-!
# Reading what was written

The shortest text of a row of integers is read as that row, as long as every integer has a
magnitude below `2 ^ 31`. Its number then fits in a word, and a word has at most seven
digits of five bits.

## Main results

- `Vlq.isGroup_digits`, `Vlq.assembled_digits` — the digits of a number are a group of that
  number
- `Vlq.decode_encodeAll` — the text of a row of integers is read as the row
-/

namespace SourceMapIndex

namespace Vlq

theorem hasContinuation_digit {value : Nat} (h : value < 64) {bit : Bool} :
    HasContinuation bit (Base64.digit value) ↔ bit = decide (32 ≤ value) :=
  hasContinuation_iff (Base64.value?_digit h)

theorem payload_digit {value : Nat} (h : value < 64) :
    payload (Base64.digit value) = value % 32 :=
  payload_of_value? (Base64.value?_digit h)

/-- The digits of a number are a group if there is room for them. -/
theorem isGroup_digits {room n : Nat} (h : n < 32 ^ (room + 1)) : IsGroup (room + 1) (digits n) := by
  induction room generalizing n with
  | zero =>
    have hn : n < 32 := by simpa using h
    rw [digits, if_pos hn, isGroup_cons_iff, hasContinuation_digit (by omega)]
    exact Or.inl ⟨by simpa using hn, rfl⟩
  | succ room ih =>
    by_cases hn : n < 32
    · rw [digits, if_pos hn, isGroup_cons_iff, hasContinuation_digit (by omega)]
      exact Or.inl ⟨by simpa using hn, rfl⟩
    · -- the first digit takes the lowest five bits, the group goes on with the others
      have hhigh : n / 32 < 32 ^ (room + 1) := by
        rw [Nat.div_lt_iff_lt_mul (by decide)]
        simpa [Nat.pow_succ] using h
      rw [digits, if_neg hn, isGroup_cons_iff, hasContinuation_digit (by omega),
        hasContinuation_digit (by omega)]
      exact Or.inr ⟨by simp, ih hhigh⟩

theorem assembled_digits (n : Nat) : assembled (digits n) = n := by
  induction n using Nat.strongRecOn with
  | ind n ih =>
    have hnil : assembled [] = 0 := rfl
    rw [digits]
    split
    · rw [assembled_cons, payload_digit (by omega), hnil]
      omega
    · rw [assembled_cons, payload_digit (by omega), ih (n / 32) (by omega)]
      omega

theorem digits_ne_nil (n : Nat) : digits n ≠ [] := by
  rw [digits]
  split <;> simp

theorem exists_value?_of_mem_digits {n : Nat} {c : Char} (h : c ∈ digits n) :
    ∃ value, Base64.value? c = some value := by
  induction n using Nat.strongRecOn with
  | ind n ih =>
    rw [digits] at h
    split at h
    · next hn =>
      rw [List.mem_singleton.mp h]
      exact ⟨n, Base64.value?_digit (by omega)⟩
    · next hn =>
      rcases List.mem_cons.mp h with hfirst | hrest
      · rw [hfirst]
        exact ⟨32 + n % 32, Base64.value?_digit (by omega)⟩
      · exact ih (n / 32) (by omega) hrest

theorem integerOf_encode (value : Int) : integerOf (encode value) = value := by
  rw [integerOf_eq_signed, encode, assembled_digits, signed_number]

/-- The text of a row of integers of less than thirty-two bits splits into the texts of the
integers. -/
theorem splits_encodeAll {values : List Int}
    (h : ∀ value ∈ values, value.natAbs ≤ 2147483647) :
    Splits (encodeAll values) (values.map encode) := by
  have hword (value : Int) (hvalue : value ∈ values) : number value < 4294967296 := by
    have := h value hvalue
    unfold number
    split <;> omega
  refine ⟨List.flatMap_def, ?_, ?_⟩
  · -- seven digits are room for every word
    intro group hgroup
    obtain ⟨value, hvalue, rfl⟩ := List.mem_map.mp hgroup
    exact isGroup_digits (Nat.lt_trans (hword value hvalue) (by decide))
  · intro group hgroup
    obtain ⟨value, hvalue, rfl⟩ := List.mem_map.mp hgroup
    rw [encode, assembled_digits]
    exact Nat.le_of_lt_succ (hword value hvalue)

/-- What is written for a row of integers is read as that row. -/
theorem decode_encodeAll {values : List Int}
    (h : ∀ value ∈ values, value.natAbs ≤ 2147483647) :
    decode (String.ofList (encodeAll values)) = .ok values := by
  have hsplits := splits_encodeAll h
  have hvalues : (values.map encode).map integerOf = values := by
    simp [Function.comp_def, integerOf_encode]
  rw [← String.toList_ofList (l := encodeAll values)] at hsplits
  rw [decode, Reader.integers_of_splits hsplits, hvalues]

end Vlq

end SourceMapIndex
