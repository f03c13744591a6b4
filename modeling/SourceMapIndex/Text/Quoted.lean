import SourceMapIndex.Text.Extending
import SourceMapIndex.Text.Unprintable

/-!
# Quoted characters

How an error message shows a character: between single quotes, with an escape in place of
every character that a reader could not tell from its surroundings. Five characters have an
escape of their own besides the quote; of the others those that no glyph stands for, and
those that would join the opening quote, are shown by their code point.

## Main definitions

- `Text.hexadecimal` — a number in lower-case hexadecimal digits
- `Text.escaped` — a character as it stands between the quotes
- `Text.quoted` — a character with its quotes
-/

namespace SourceMapIndex

namespace Text

/-- A number in lower-case hexadecimal digits, without leading zeros. -/
def hexadecimal (n : Nat) : String :=
  String.ofList (Nat.toDigits 16 n)

/-- A character as it stands between single quotes. -/
def escaped (c : Char) : String :=
  match c with
  | '\x00' => "\\0"
  | '\t' => "\\t"
  | '\n' => "\\n"
  | '\r' => "\\r"
  | '\'' => "\\'"
  | '\\' => "\\\\"
  | c =>
    if Extending.contains c || Unprintable.contains c then
      "\\u\x7b" ++ hexadecimal c.toNat ++ "\x7d"
    else
      String.singleton c

/-- A character between single quotes. -/
def quoted (c : Char) : String :=
  "'" ++ escaped c ++ "'"

/-- A letter is shown as it is. -/
example : quoted 'A' = "'A'" := by decide +kernel

/-- A character without a glyph is shown by its code point. -/
example : quoted '\x1b' = "'\\u\x7b1b\x7d'" := by decide +kernel

/-- A combining mark is shown by its code point. -/
example : quoted (Char.ofNat 0x301) = "'\\u\x7b301\x7d'" := by decide +kernel

end Text

end SourceMapIndex
