import SourceMapIndex.Json.Basic

/-!
# Numerals

How JSON writes numbers: an optional sign, a whole part without leading zeros, an optional
fraction and an optional exponent. A numeral that is no integer of sixty-four bits has to
lie in the range of double-precision numbers.

## Main definitions

- `Numeral` — the parts of a numeral
- `Numeral.scan` — the numeral at the start of a text
- `Numeral.exceedsDouble` — whether the numeral is beyond the largest double
- `Numeral.number` — the number of a numeral

## Design notes

The range is judged on the digits that sixty-four bits hold, scaled by a power of ten; both
factors are rounded to a double before they are multiplied. Rounding is exact arithmetic on
natural numbers, since all numbers near the limit are integers.
-/

namespace SourceMapIndex

namespace Json

/-- The parts of a numeral; the lists hold digits. -/
structure Numeral where
  /-- Whether there is a minus sign. -/
  negative : Bool
  /-- The digits of the whole part. -/
  whole : List Char
  /-- The digits after the point, if there is one. -/
  fraction : Option (List Char) := none
  /-- The mark of the exponent with its sign, and the digits after them, if there is one. -/
  exponent : Option (List Char × List Char) := none
deriving DecidableEq

namespace Numeral

/-- The value of a digit. -/
def digitValue (c : Char) : Nat :=
  c.toNat - '0'.toNat

/-- The number of a row of digits. -/
def ofDigits (digits : List Char) : Nat :=
  digits.foldl (fun n c => n * 10 + digitValue c) 0

/-! ### Scanning -/

/-- The flaw of a numeral that lacks a digit before the given text: a reader who wants the
number waits for the digit, one who skips it does not. -/
def missingDigit : List Char → Flaw
  | [] => ⟨.truncated, some .malformed⟩
  | _ :: _ => ⟨.malformed, some .malformed⟩

/-- One digit or more at the start of a text. -/
def scanDigits (text : List Char) : Except Flaw (List Char × List Char) :=
  match text.takeWhile Char.isDigit with
  | [] => .error (missingDigit text)
  | digits => .ok (digits, text.dropWhile Char.isDigit)

/-- The whole part at the start of a text: a zero has no digit after it. -/
def scanWhole (text : List Char) : Except Flaw (List Char × List Char) :=
  match scanDigits text with
  | .ok ('0' :: _ :: _, _) => .error ⟨.malformed, some .malformed⟩
  | result => result

/-- The fraction at the start of a text, if there is one. -/
def scanFraction : List Char → Except Flaw (Option (List Char) × List Char)
  | '.' :: text => (scanDigits text).map fun (digits, rest) => (some digits, rest)
  | text => .ok (none, text)

/-- The mark of an exponent with its sign at the start of a text, with what follows them. -/
def scanMark : List Char → Option (List Char × List Char)
  | c :: text =>
    if c = 'e' ∨ c = 'E' then
      match text with
      | '+' :: rest => some ([c, '+'], rest)
      | '-' :: rest => some ([c, '-'], rest)
      | rest => some ([c], rest)
    else
      none
  | [] => none

/-- The exponent at the start of a text, if there is one. -/
def scanExponent (text : List Char) :
    Except Flaw (Option (List Char × List Char) × List Char) :=
  match scanMark text with
  | none => .ok (none, text)
  | some (mark, text) => (scanDigits text).map fun (digits, rest) => (some (mark, digits), rest)

/-- The numeral after the sign. -/
def scanUnsigned (negative : Bool) (text : List Char) : Except Flaw (Numeral × List Char) := do
  let (whole, text) ← scanWhole text
  let (fraction, text) ← scanFraction text
  let (exponent, text) ← scanExponent text
  return ({ negative, whole, fraction, exponent }, text)

/-- The numeral at the start of a text, with what follows it. -/
def scan : List Char → Except Flaw (Numeral × List Char)
  | '-' :: text => scanUnsigned true text
  | text => scanUnsigned false text

/-! ### Value -/

/-- A natural number rounded to the fifty-three binary digits of a double; halves go to the
even neighbour. -/
def roundToDouble (n : Nat) : Nat :=
  let extra := n.log2 + 1 - 53
  let unit := Nat.pow 2 extra
  let quotient := n / unit
  let rest := n % unit
  if unit < 2 * rest ∨ unit = 2 * rest ∧ quotient % 2 = 1 then (quotient + 1) * unit
  else quotient * unit

/-- From here on natural numbers round to no finite double: it lies half a step beyond the
largest. -/
def doubleLimit : Nat := Nat.pow 2 1024 - Nat.pow 2 970

/-- The number that `n` becomes when digits are appended to it as long as it fits in
sixty-four bits, with the digits that are left. -/
def accumulate (n : Nat) : List Char → Nat × List Char
  | [] => (n, [])
  | c :: digits =>
    let longer := n * 10 + digitValue c
    if longer < 18446744073709551616 then accumulate longer digits else (n, c :: digits)

/-- The power of ten that the exponent stands for. -/
def power (numeral : Numeral) : Int :=
  match numeral.exponent with
  | none => 0
  | some (mark, digits) =>
    if '-' ∈ mark then -(ofDigits digits : Int) else (ofDigits digits : Int)

/-- The leading digits of the numeral that sixty-four bits hold, and the power of ten that
scales them. Digits of the fraction that do not fit are left out. -/
def scaled (numeral : Numeral) : Nat × Int :=
  let fraction := numeral.fraction.getD []
  let (whole, dropped) := accumulate 0 numeral.whole
  let (significand, ignored) := accumulate whole fraction
  let places := (fraction.length : Int) - ignored.length
  (significand, (dropped.length : Int) - places + numeral.power)

/-- Whether the numeral is beyond the largest double. -/
def exceedsDouble (numeral : Numeral) : Bool :=
  let (significand, power) := numeral.scaled
  significand ≠ 0 && 0 ≤ power &&
    (308 < power || doubleLimit ≤ roundToDouble significand * roundToDouble (Nat.pow 10 power.toNat))

/-- The text of a numeral. -/
def text (numeral : Numeral) : String :=
  String.ofList <|
    (if numeral.negative then ['-'] else []) ++ numeral.whole
      ++ (match numeral.fraction with
          | none => []
          | some digits => '.' :: digits)
      ++ (match numeral.exponent with
          | none => []
          | some (mark, digits) => mark ++ digits)

/-- The integer that the numeral writes, if it has neither fraction nor exponent and fits in
sixty-four bits. A negative zero is no integer. -/
def integer? (numeral : Numeral) : Option Int :=
  match numeral.fraction, numeral.exponent with
  | none, none =>
    let magnitude := ofDigits numeral.whole
    if numeral.negative then
      if 0 < magnitude ∧ magnitude ≤ 9223372036854775808 then some (-(magnitude : Int)) else none
    else
      if magnitude < 18446744073709551616 then some (magnitude : Int) else none
  | _, _ => none

/-- The number of a numeral. One that is out of range is malformed, unless it is skipped. -/
def number (numeral : Numeral) : Except Flaw Number :=
  match numeral.integer? with
  | some value => .ok (.int value)
  | none =>
    if numeral.exceedsDouble then .error ⟨.malformed, none⟩ else .ok (.real numeral.text)

/-- The powers of ten up to `10 ^ 308` are doubles, the next one is none. -/
example :
    exceedsDouble { negative := false, whole := ['1'], exponent := some (['e'], ['3', '0', '8']) }
      = false ∧
    exceedsDouble { negative := false, whole := ['1'], exponent := some (['e'], ['3', '0', '9']) }
      = true := by
  decide +kernel

end Numeral

end Json

end SourceMapIndex
