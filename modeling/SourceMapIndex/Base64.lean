/-!
# Base64 digits

The sixty-four digits of base64: the upper-case letters stand for `0` to `25`, the
lower-case letters for `26` to `51`, the decimal digits for `52` to `61`, and `+` and `/`
for `62` and `63`.

## Main definitions

- `Base64.value?` — the value of a digit
- `Base64.digit` — the digit of a value
-/

namespace SourceMapIndex

namespace Base64

/-- The value of a digit; a character outside the alphabet has none. -/
def value? (c : Char) : Option Nat :=
  if 'A'.toNat ≤ c.toNat ∧ c.toNat ≤ 'Z'.toNat then some (c.toNat - 'A'.toNat)
  else if 'a'.toNat ≤ c.toNat ∧ c.toNat ≤ 'z'.toNat then some (c.toNat - 'a'.toNat + 26)
  else if '0'.toNat ≤ c.toNat ∧ c.toNat ≤ '9'.toNat then some (c.toNat - '0'.toNat + 52)
  else if c = '+' then some 62
  else if c = '/' then some 63
  else none

/-- The digit of a value below `64`. -/
def digit (value : Nat) : Char :=
  if value < 26 then Char.ofNat (value + 'A'.toNat)
  else if value < 52 then Char.ofNat (value - 26 + 'a'.toNat)
  else if value < 62 then Char.ofNat (value - 52 + '0'.toNat)
  else if value = 62 then '+'
  else '/'

/-- Every value is below `64`. -/
theorem value?_lt {c : Char} {value : Nat} (h : value? c = some value) : value < 64 := by
  simp only [value?, Char.reduceToNat] at h
  grind

/-- The digit of a value has that value. -/
theorem value?_digit {value : Nat} (h : value < 64) : value? (digit value) = some value := by
  have hall : ∀ v : Fin 64, value? (digit v.val) = some v.val := by decide +kernel
  exact hall ⟨value, h⟩

/-- A digit is determined by its value. -/
theorem digit_of_value? {c : Char} {value : Nat} (h : value? c = some value) : digit value = c := by
  have hc : Char.ofNat c.toNat = c := Char.ofNat_toNat c
  simp only [value?, Char.reduceToNat] at h
  simp only [digit, Char.reduceToNat]
  grind

/-- Digits are characters of one byte. -/
theorem utf8Size_of_value? {c : Char} {value : Nat} (h : value? c = some value) :
    c.utf8Size = 1 := by
  have hall : ∀ v : Fin 64, (digit v.val).utf8Size = 1 := by decide +kernel
  rw [← digit_of_value? h]
  exact hall ⟨value, value?_lt h⟩

end Base64

end SourceMapIndex
