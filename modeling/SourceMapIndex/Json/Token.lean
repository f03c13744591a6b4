import SourceMapIndex.Json.Numeral
import SourceMapIndex.Json.Quoted

/-!
# Tokens of JSON

A JSON text is a row of tokens with blanks between them. A token that has a fault is a token
still: what the fault means depends on whether a value may stand there.

## Main definitions

- `Token` — a mark, a string, or another value without parts
- `Token.next?` — the next token of a text, with the text after it
-/

namespace SourceMapIndex

namespace Json

/-- A token of a JSON text. -/
inductive Token where
  | beginArray
  | endArray
  | beginObject
  | endObject
  | colon
  | comma
  /-- A string: as a value or as the key of a member. -/
  | string (content : Except Flaw String)
  /-- A number, a word, or a character that starts no token. -/
  | leaf (value : Draft)

namespace Token

/-- Whether a character may stand between tokens. -/
def isBlank (c : Char) : Bool :=
  c = ' ' || c = '\n' || c = '\t' || c = '\r'

/-- The word `letters` at the start of a text, with the text after it. -/
def word : (letters text : List Char) → Except Fault (List Char)
  | [], text => .ok text
  | _ :: _, [] => .error .truncated
  | letter :: letters, c :: text => if letter = c then word letters text else .error .malformed

/-- The token of a value that is a word, after its first letter. -/
def named (value : Draft) (letters text : List Char) : Token × List Char :=
  match word letters text with
  | .ok rest => (.leaf value, rest)
  | .error fault => (.leaf (.broken fault), [])

/-- The token of a number. One that is beyond the doubles still has an end. -/
def number (text : List Char) : Token × List Char :=
  match Numeral.scan text with
  | .error flaw => (.leaf (.flawed flaw), [])
  | .ok (numeral, rest) =>
    match numeral.number with
    | .ok value => (.leaf (.number value), rest)
    | .error flaw => (.leaf (.flawed flaw), rest)

/-- The token that starts with the character `c`, with the text after it. -/
def starting (c : Char) (text : List Char) : Token × List Char :=
  match c with
  | '[' => (.beginArray, text)
  | ']' => (.endArray, text)
  | '\x7b' => (.beginObject, text)
  | '\x7d' => (.endObject, text)
  | ':' => (.colon, text)
  | ',' => (.comma, text)
  | '"' => ((Quoted.content text).map .string id)
  | 'n' => named .null ['u', 'l', 'l'] text
  | 't' => named (.bool true) ['r', 'u', 'e'] text
  | 'f' => named (.bool false) ['a', 'l', 's', 'e'] text
  | c =>
    if c = '-' ∨ c.isDigit then number (c :: text) else (.leaf (.broken .malformed), [])

/-- The next token of a text, with the text after it; at the end of the text there is none.
Nothing follows a fault that no reader passes. -/
def next? (text : List Char) : Option (Token × List Char) :=
  match text.dropWhile isBlank with
  | [] => none
  | c :: rest => some (starting c rest)

end Token

end Json

end SourceMapIndex
