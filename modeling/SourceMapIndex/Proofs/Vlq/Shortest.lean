import Mathlib
import SourceMapIndex.Proofs.Vlq.RoundTrip

/-!
# The shortest text of a row of integers

An integer has many texts. A group may end in digits that add nothing, and the number `1` is
a zero with a minus sign. What is written for a row of integers is the shortest of all texts
that are read as the row: a group of `n` digits has a number below `32 ^ n`, and writing the
integer of a number never makes the number larger.

## Main results

- `Vlq.natAbs_le_of_decode` — the integers that are read have less than thirty-two bits
- `Vlq.length_encode_integerOf_le` — a group is not shorter than what is written for its integer
- `Vlq.decode_encodeAll_shortest` — every row that is read has a shortest text
-/

namespace SourceMapIndex

namespace Vlq

/-! ### Bytes -/

/-- Digits are read byte by byte. -/
theorem utf8Len_eq_length {text : List Char}
    (h : ∀ c ∈ text, ∃ value, Base64.value? c = some value) : String.utf8Len text = text.length := by
  induction text with
  | nil => rfl
  | cons c rest ih =>
    obtain ⟨value, hvalue⟩ := h c List.mem_cons_self
    rw [String.utf8Len_cons, Base64.utf8Size_of_value? hvalue, List.length_cons,
      ih fun d hd => h d (List.mem_cons_of_mem c hd)]

theorem HasContinuation.exists_value? {bit : Bool} {c : Char} (h : HasContinuation bit c) :
    ∃ value, Base64.value? c = some value :=
  h.imp fun _ => And.left

theorem IsGroup.exists_value? {room : Nat} {digits : List Char} (h : IsGroup room digits) :
    ∀ c ∈ digits, ∃ value, Base64.value? c = some value := by
  obtain ⟨more, last, rfl, -, hmore, hlast⟩ := h
  intro c hc
  rcases List.mem_append.mp hc with hc | hc
  · exact (hmore c hc).exists_value?
  · exact List.mem_singleton.mp hc ▸ hlast.exists_value?

theorem Splits.exists_value? {text : List Char} {groups : List (List Char)}
    (h : Splits text groups) : ∀ c ∈ text, ∃ value, Base64.value? c = some value := by
  intro c hc
  rw [h.text] at hc
  obtain ⟨digits, hdigits, hmem⟩ := List.mem_flatten.mp hc
  exact (h.isGroup digits hdigits).exists_value? c hmem

theorem exists_value?_of_mem_encodeAll {values : List Int} :
    ∀ c ∈ encodeAll values, ∃ value, Base64.value? c = some value := by
  intro c hc
  obtain ⟨value, _, hmem⟩ := List.mem_flatMap.mp hc
  exact exists_value?_of_mem_digits hmem

/-! ### Lengths -/

theorem IsGroup.length_pos {room : Nat} {digits : List Char} (h : IsGroup room digits) :
    0 < digits.length := by
  obtain ⟨more, last, rfl, -⟩ := h
  simp

theorem IsGroup.length_le {room : Nat} {digits : List Char} (h : IsGroup room digits) :
    digits.length ≤ room := by
  obtain ⟨more, last, rfl, hroom, -⟩ := h
  rw [List.length_append, List.length_singleton]
  omega

theorem assembled_lt (digits : List Char) : assembled digits < 32 ^ digits.length := by
  have hpayload : ∀ n ∈ digits.map payload, n < 32 := by
    intro n hn
    obtain ⟨c, _, rfl⟩ := List.mem_map.mp hn
    exact Nat.mod_lt _ (by decide)
  have hlt := Nat.ofDigits_lt_base_pow_length (by decide) hpayload
  rwa [List.length_map] at hlt

theorem number_signed_le (n : Nat) : number (signed n) ≤ n := by
  unfold number signed
  split <;> split <;> omega

theorem natAbs_signed_le {n : Nat} (h : n ≤ 4294967295) : (signed n).natAbs ≤ 2147483647 := by
  unfold signed
  split <;> omega

/-- What is written for the integer of a group is not longer than the group. -/
theorem length_encode_integerOf_le {room : Nat} {digits : List Char} (h : IsGroup room digits) :
    (encode (integerOf digits)).length ≤ digits.length := by
  obtain ⟨n, hn⟩ := Nat.exists_eq_succ_of_ne_zero (Nat.ne_of_gt h.length_pos)
  have hnumber : number (integerOf digits) < 32 ^ (n + 1) := by
    calc number (integerOf digits) = number (signed (assembled digits)) := by
          rw [integerOf_eq_signed]
      _ ≤ assembled digits := number_signed_le _
      _ < 32 ^ digits.length := assembled_lt digits
      _ = 32 ^ (n + 1) := by rw [hn]
  rw [hn]
  exact (isGroup_digits hnumber).length_le

theorem length_encodeAll_le {text : List Char} {groups : List (List Char)}
    (h : Splits text groups) : (encodeAll (groups.map integerOf)).length ≤ text.length := by
  induction groups generalizing text with
  | nil => exact Nat.zero_le _
  | cons digits rest ih =>
    obtain ⟨hdigits, -, rfl, hrest⟩ := h.tail
    have hfirst := length_encode_integerOf_le hdigits
    have hothers := ih hrest
    simp only [encodeAll, List.map_cons, List.flatMap_cons, List.length_append] at hothers ⊢
    omega

/-- The integers of a text have a magnitude below `2 ^ 31`. -/
theorem natAbs_le_of_decode {token : String} {values : List Int}
    (h : decode token = .ok values) : ∀ value ∈ values, value.natAbs ≤ 2147483647 := by
  obtain ⟨groups, hgroups, rfl⟩ := exists_splits_of_decode h
  intro value hvalue
  obtain ⟨digits, hdigits, rfl⟩ := List.mem_map.mp hvalue
  rw [integerOf_eq_signed]
  exact natAbs_signed_le (hgroups.word digits hdigits)

/-- A row of integers below `2 ^ 31` in magnitude is read from the text that is written for it,
and no other rows are ever read. Whatever text a row was read from, with groups that are
longer than they need to be or with a negative zero, the text that is written for the row is
read as the same row and has no more bytes. -/
theorem decode_encodeAll_shortest :
    (∀ values : List Int, (∀ value ∈ values, value.natAbs ≤ 2147483647) →
      decode (String.ofList (encodeAll values)) = .ok values) ∧
    ∀ (token : String) (values : List Int), decode token = .ok values →
      (∀ value ∈ values, value.natAbs ≤ 2147483647) ∧
        decode (String.ofList (encodeAll values)) = .ok values ∧
          (String.ofList (encodeAll values)).utf8ByteSize ≤ token.utf8ByteSize := by
  refine ⟨fun values => decode_encodeAll, fun token values h => ?_⟩
  have hsmall := natAbs_le_of_decode h
  refine ⟨hsmall, decode_encodeAll hsmall, ?_⟩
  obtain ⟨groups, hgroups, rfl⟩ := exists_splits_of_decode h
  -- both texts consist of digits, so bytes are counted by characters
  rw [String.utf8ByteSize_ofList, utf8Len_eq_length exists_value?_of_mem_encodeAll,
    ← String.utf8Len_toList, utf8Len_eq_length hgroups.exists_value?]
  exact length_encodeAll_le hgroups

/-- Two zeros, the one negative and the other with a digit too many, take two digits less when
they are written anew. -/
theorem decode_encodeAll_shortest_overlong :
    decode "BggA" = .ok [0, 0] ∧ String.ofList (encodeAll [0, 0]) = "AA" ∧
      decode "AA" = .ok [0, 0] ∧ "AA".utf8ByteSize ≤ "BggA".utf8ByteSize := by
  have hread : decode "BggA" = .ok [0, 0] := by cbv
  have hwritten : String.ofList (encodeAll [0, 0]) = "AA" := by cbv
  obtain ⟨-, hsame, hbytes⟩ := decode_encodeAll_shortest.2 "BggA" [0, 0] hread
  rw [hwritten] at hsame hbytes
  exact ⟨hread, hwritten, hsame, hbytes⟩

end Vlq

end SourceMapIndex
