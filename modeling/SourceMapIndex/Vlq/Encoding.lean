import SourceMapIndex.Vlq.Basic

/-!
# Writing variable-length quantities

The shortest text of an integer: its number in five-bit digits without leading zeros, the
lowest digit first.

## Main definitions

- `Vlq.number` — the number of an integer, with its sign in the lowest bit
- `Vlq.digits` — the base64 digits of a number
- `Vlq.encode` — the text of an integer
- `Vlq.encodeAll` — the text of a row of integers
-/

namespace SourceMapIndex

namespace Vlq

/-- The number of an integer: twice its magnitude, and one more if it is negative. -/
def number (value : Int) : Nat :=
  if value < 0 then 2 * value.natAbs + 1 else 2 * value.natAbs

/-- The base64 digits of a number. All but the last say that another one follows. -/
def digits (n : Nat) : List Char :=
  if n < 32 then [Base64.digit n] else Base64.digit (32 + n % 32) :: digits (n / 32)

/-- The text of an integer. -/
def encode (value : Int) : List Char :=
  digits (number value)

/-- The text of a row of integers. -/
def encodeAll (values : List Int) : List Char :=
  values.flatMap encode

/-- The integer of an integer's number is the integer. -/
theorem signed_number (value : Int) : signed (number value) = value := by
  unfold signed number
  split <;> split <;> omega

/-- A zero takes one digit, and so do the smallest negative integers. -/
example : encodeAll [0, -1, 16, 123] = "ADgB2H".toList := by cbv

end Vlq

end SourceMapIndex
