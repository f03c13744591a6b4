/-!
# Machine words

Lines and columns are words of thirty-two bits. Numbers reach them in two ways: a count is
held at the largest word once it passes it, and a computed position is a word only if it
lies in range. The computing itself is done in signed words of sixty-four bits, whose sums
wrap around.

## Main definitions

- `Word.saturate` — the word nearest to a count
- `Word.next` — the word after a word, the largest word being its own successor
- `Word.ofInt?` — the word equal to an integer, if there is one
- `Word.wrap` — the signed word of sixty-four bits that a sum comes to
-/

namespace SourceMapIndex

namespace Word

/-- The word nearest to a count: the count itself, or the largest word if the count is
larger. -/
def saturate (n : Nat) : UInt32 :=
  if n < UInt32.size then UInt32.ofNat n else UInt32.ofNat (UInt32.size - 1)

/-- The word after `w`; the largest word is its own successor. -/
def next (w : UInt32) : UInt32 :=
  saturate (w.toNat + 1)

/-- The word equal to `n`; there is none if `n` is negative or at least `2 ^ 32`. -/
def ofInt? (n : Int) : Option UInt32 :=
  if 0 ≤ n ∧ n < 4294967296 then some (UInt32.ofNat n.toNat) else none

/-- The signed word of sixty-four bits that a sum comes to: the number from `-2 ^ 63` to
`2 ^ 63 - 1` that differs from the sum by a multiple of `2 ^ 64`. -/
def wrap (n : Int) : Int :=
  n.bmod 18446744073709551616

/-- A count that fits keeps its value. -/
theorem toNat_saturate_of_lt {n : Nat} (h : n < UInt32.size) : (saturate n).toNat = n := by
  simp [saturate, h, UInt32.toNat_ofNat_of_lt' h]

/-- A saturated count is the smaller of the count and the largest word. -/
theorem toNat_saturate (n : Nat) : (saturate n).toNat = min n 4294967295 := by
  by_cases h : n < UInt32.size
  · rw [toNat_saturate_of_lt h]
    simp only [UInt32.size] at h
    omega
  · have hn : ¬n < 4294967296 := h
    simp only [saturate, if_neg h]
    have : (UInt32.ofNat (UInt32.size - 1)).toNat = 4294967295 := by decide
    omega

/-- The integers that are words are those from `0` to `2 ^ 32 - 1`. -/
theorem ofInt?_eq_some_iff {n : Int} {w : UInt32} : ofInt? n = some w ↔ n = w.toNat := by
  unfold ofInt?
  constructor
  · intro h
    split at h
    · rename_i hn
      have hlt : n.toNat < UInt32.size := by
        have : UInt32.size = 4294967296 := rfl
        omega
      rw [← Option.some.inj h, UInt32.toNat_ofNat_of_lt' hlt]
      omega
    · simp at h
  · intro h
    have hw := w.toNat_lt
    rw [if_pos (by omega), h]
    simp

/-! ### Sums that wrap around -/

/-- A sum that is a signed word is not wrapped. -/
theorem wrap_of_le {n : Int} (hle : -9223372036854775808 ≤ n) (hlt : n ≤ 9223372036854775807) :
    wrap n = n :=
  Int.bmod_eq_of_le hle (by omega)

/-- The sum of two signed words. -/
theorem toInt_add_eq_wrap (a b : Int64) : (a + b).toInt = wrap (a.toInt + b.toInt) :=
  Int64.toInt_add a b

@[simp]
theorem wrap_zero : wrap 0 = 0 :=
  Int.zero_bmod

/-- Wrapping on the way makes no difference to where a sum ends. -/
@[simp]
theorem wrap_wrap_add (a b : Int) : wrap (wrap a + b) = wrap (a + b) :=
  Int.bmod_add_bmod

/-- A difference of two numbers, added to the one, comes to the other. -/
theorem wrap_add_sub {a b : Int} (hle : -9223372036854775808 ≤ b)
    (hlt : b ≤ 9223372036854775807) : wrap (a + (b - a)) = b := by
  rw [show a + (b - a) = b by omega]
  exact wrap_of_le hle hlt

/-- Wrapping never takes a number farther from zero. -/
theorem natAbs_wrap_le (n : Int) : (wrap n).natAbs ≤ n.natAbs := by
  have hle := Int.le_bmod (x := n) (m := 18446744073709551616) (by decide)
  have hlt := Int.bmod_lt (x := n) (m := 18446744073709551616) (by decide)
  unfold wrap
  by_cases hword : -9223372036854775808 ≤ n ∧ n ≤ 9223372036854775807
  · exact Nat.le_of_eq (congrArg Int.natAbs (wrap_of_le hword.1 hword.2))
  · omega

end Word

end SourceMapIndex
