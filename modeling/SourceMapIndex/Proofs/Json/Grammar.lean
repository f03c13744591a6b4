import Mathlib.Data.List.Forall2
import SourceMapIndex.Json.Numeral
import SourceMapIndex.Json.Quoted

/-!
# The grammar of JSON

What the texts of JSON are, said without reading them. A character of a string has several
spellings, blanks may stand around every mark, and the parts of an array or an object may be
anything. A text is a value if it is derived in this way; nothing is said here of what the value
is worth. Only strings are given a meaning, since the members of a record are found by it.

## Main definitions

- `Json.IsBlank` — a text that may stand between the parts of a value
- `Numeral.IsWellFormed` — the numerals that JSON has
- `Quoted.WritesChar`, `Json.WritesString` — the spellings of a character and of a string
- `Json.IsString` — what stands between quotes, whether or not it spells a string
- `Json.Separated`, `Json.Enclosed` — texts with commas between them, and in brackets
- `Json.IsValue` — the text of a value
- `Json.IsTextOf` — a text with one part and blanks around it

## Design notes

A unit that belongs to a pair may stand alone between quotes, as far as the grammar goes. Such a
text is an `IsString`, but there is no string that it spells.
-/

namespace SourceMapIndex

namespace Json

/-- A text of blanks. -/
def IsBlank (text : List Char) : Prop :=
  ∀ c ∈ text, c ∈ [' ', '\n', '\r', '\t']

instance (text : List Char) : Decidable (IsBlank text) :=
  List.decidableBAll (· ∈ [' ', '\n', '\r', '\t']) text

/-! ### Numbers -/

namespace Numeral

/-- A row of decimal digits, one at least. -/
structure IsDigits (digits : List Char) : Prop where
  nonempty : digits ≠ []
  isDigit : ∀ c ∈ digits, c.isDigit = true

/-- The marks of an exponent with their signs. -/
def marks : List (List Char) :=
  [['e'], ['E'], ['e', '+'], ['E', '+'], ['e', '-'], ['E', '-']]

/-- All parts of a numeral are rows of digits, the whole part without a zero in front. -/
structure IsWellFormed (numeral : Numeral) : Prop where
  whole : IsDigits numeral.whole
  leading : numeral.whole.head? = some '0' → numeral.whole = ['0']
  fraction : ∀ digits ∈ numeral.fraction, IsDigits digits
  mark : ∀ exponent ∈ numeral.exponent, exponent.1 ∈ marks
  exponent : ∀ exponent ∈ numeral.exponent, IsDigits exponent.2

end Numeral

/-- The text of a number. -/
def IsNumber (text : List Char) : Prop :=
  ∃ numeral : Numeral, numeral.IsWellFormed ∧ text = numeral.text.toList

/-! ### Strings -/

namespace Quoted

/-- The sixteen-bit units of a character: one, or a pair of them beyond sixteen bits. -/
def units (c : Char) : List Nat :=
  if c.toNat < 0x10000 then [c.toNat]
  else [0xd800 + (c.toNat - 0x10000) / 1024, 0xdc00 + (c.toNat - 0x10000) % 1024]

/-- A hexadecimal digit of either case. -/
def IsHexDigit (value : Nat) (c : Char) : Prop :=
  value < 16 ∧ (c = hexDigit value ∨ c = (hexDigit value).toUpper)

/-- A unit is written by its four hexadecimal digits. -/
def WritesUnit (value : Nat) (text : List Char) : Prop :=
  ∃ a b c d, IsHexDigit (value / 4096) a ∧ IsHexDigit (value / 256 % 16) b ∧
    IsHexDigit (value / 16 % 16) c ∧ IsHexDigit (value % 16) d ∧ text = ['\\', 'u', a, b, c, d]

/-- A character may stand between quotes as it is. -/
def IsPlain (c : Char) : Prop :=
  32 ≤ c.toNat ∧ c ≠ '"' ∧ c ≠ '\\'

/-- The escapes of one letter, with the characters that they stand for. -/
def letters : List (Char × Char) :=
  [('"', '"'), ('\\', '\\'), ('/', '/'), ('b', '\x08'), ('f', '\x0c'), ('n', '\n'), ('r', '\r'),
    ('t', '\t')]

/-- The spellings of a character between quotes. -/
inductive WritesChar : Char → List Char → Prop
  | plain {c : Char} : IsPlain c → WritesChar c [c]
  | letter {letter c : Char} : (letter, c) ∈ letters → WritesChar c ['\\', letter]
  | units {c : Char} {texts : List (List Char)} :
    List.Forall₂ WritesUnit (units c) texts → WritesChar c texts.flatten

/-- What may stand between quotes; a unit need not be that of a character. -/
inductive IsPiece : List Char → Prop
  | plain {c : Char} : IsPlain c → IsPiece [c]
  | letter {letter c : Char} : (letter, c) ∈ letters → IsPiece ['\\', letter]
  | unit {value : Nat} {text : List Char} : WritesUnit value text → IsPiece text

end Quoted

/-- The spellings of a string. -/
def WritesString (value : String) (text : List Char) : Prop :=
  ∃ parts, List.Forall₂ Quoted.WritesChar value.toList parts ∧
    text = '"' :: (parts.flatten ++ ['"'])

/-- The text of a string, which may have units that are not those of characters. -/
def IsString (text : List Char) : Prop :=
  ∃ parts : List (List Char), (∀ part ∈ parts, Quoted.IsPiece part) ∧
    text = '"' :: (parts.flatten ++ ['"'])

/-! ### Arrays and objects -/

/-- Texts with commas between them, each with blanks around it. -/
inductive Separated : List (List Char) → List Char → Prop
  | last {before text after : List Char} :
    IsBlank before → IsBlank after → Separated [text] (before ++ (text ++ after))
  | cons {before text after rest : List Char} {texts : List (List Char)} :
    IsBlank before → IsBlank after → Separated texts rest →
    Separated (text :: texts) (before ++ (text ++ (after ++ ',' :: rest)))

/-- Texts with commas between them and brackets around them. -/
inductive Enclosed (opening closing : Char) : List (List Char) → List Char → Prop
  | empty {blank : List Char} :
    IsBlank blank → Enclosed opening closing [] (opening :: (blank ++ [closing]))
  | parts {texts : List (List Char)} {row : List Char} :
    Separated texts row → Enclosed opening closing texts (opening :: (row ++ [closing]))

/-- The texts of an array of strings. -/
def WritesStrings (values : List String) (text : List Char) : Prop :=
  ∃ texts, List.Forall₂ WritesString values texts ∧ Enclosed '[' ']' texts text

/-- The text of a member, by the texts of its key and of its value. -/
def JoinsMember (member : List Char × List Char) (text : List Char) : Prop :=
  ∃ before after, IsBlank before ∧ IsBlank after ∧
    text = member.1 ++ (before ++ ':' :: (after ++ member.2))

/-- The text of a value. -/
inductive IsValue : List Char → Prop
  | word {text : List Char} :
    text ∈ ["null".toList, "true".toList, "false".toList] → IsValue text
  | number {text : List Char} : IsNumber text → IsValue text
  | string {text : List Char} : IsString text → IsValue text
  | array {items : List (List Char)} {text : List Char} :
    (∀ item ∈ items, IsValue item) → Enclosed '[' ']' items text → IsValue text
  | object {members : List (List Char × List Char)} {texts : List (List Char)}
      {text : List Char} :
    (∀ member ∈ members, IsString member.1) → (∀ member ∈ members, IsValue member.2) →
    List.Forall₂ JoinsMember members texts → Enclosed '\x7b' '\x7d' texts text → IsValue text

/-- A text that has one part and nothing but blanks around it. -/
def IsTextOf (part : List Char) (text : String) : Prop :=
  ∃ before after, IsBlank before ∧ IsBlank after ∧
    text = String.ofList (before ++ (part ++ after))

end Json

end SourceMapIndex
