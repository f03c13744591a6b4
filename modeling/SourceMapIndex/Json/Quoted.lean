import SourceMapIndex.Json.Basic

/-!
# Quoted strings

How JSON writes strings: between quotes, with escapes for quotes, backslashes and control
characters. An escape may also give the sixteen-bit unit of a character by its hexadecimal
digits; a character beyond sixteen bits is then a pair of units.

## Main definitions

- `Quoted.Piece` — a character of a string, or a unit
- `Quoted.scan` — the pieces up to the closing quote
- `Quoted.content` — the string that the pieces spell
- `Quoted.escape` — a character as it is written between quotes

## Design notes

A reader who skips a string does not pair its units, so scanning and pairing are two passes:
the first finds every fault that both readers meet, the second those that only a reader of
the string meets.
-/

namespace SourceMapIndex

namespace Json

namespace Quoted

/-- A part of a quoted string. -/
inductive Piece where
  /-- A character, as it is or by its own escape. -/
  | char (value : Char)
  /-- A sixteen-bit unit, by its hexadecimal digits. -/
  | unit (value : Nat)
deriving DecidableEq

/-- How a quoted string ends. -/
inductive Ending where
  /-- With its closing quote, and the text that follows it. -/
  | closed (rest : List Char)
  /-- With a fault. -/
  | broken (fault : Fault)
deriving DecidableEq

/-- The character of an escape of one letter. -/
def escaped? : Char → Option Char
  | '"' => some '"'
  | '\\' => some '\\'
  | '/' => some '/'
  | 'b' => some '\x08'
  | 'f' => some '\x0c'
  | 'n' => some '\n'
  | 'r' => some '\r'
  | 't' => some '\t'
  | _ => none

/-- The value of a hexadecimal digit. -/
def hexValue? (c : Char) : Option Nat :=
  if '0' ≤ c ∧ c ≤ '9' then some (c.toNat - '0'.toNat)
  else if 'a' ≤ c ∧ c ≤ 'f' then some (c.toNat - 'a'.toNat + 10)
  else if 'A' ≤ c ∧ c ≤ 'F' then some (c.toNat - 'A'.toNat + 10)
  else none

/-- The unit of four hexadecimal digits. -/
def unit? (a b c d : Char) : Option Nat := do
  let a ← hexValue? a
  let b ← hexValue? b
  let c ← hexValue? c
  let d ← hexValue? d
  return a * 4096 + b * 256 + c * 16 + d

/-- The bytes that a text takes. -/
def byteLength (text : List Char) : Nat :=
  text.foldr (fun c bytes => c.utf8Size + bytes) 0

/-- The pieces of a quoted string after its opening quote, with its ending; `before` holds
the pieces already read, latest first. The four digits of a unit have to be there as four
bytes before anything is said about them. -/
def scan (before : List Piece) : List Char → List Piece × Ending
  | [] => (before.reverse, .broken .truncated)
  | '"' :: rest => (before.reverse, .closed rest)
  | ['\\'] => (before.reverse, .broken .truncated)
  | '\\' :: 'u' :: a :: b :: c :: d :: rest =>
    match unit? a b c d with
    | some value => scan (.unit value :: before) rest
    | none => (before.reverse, .broken .malformed)
  | '\\' :: 'u' :: few =>
    (before.reverse, .broken (if byteLength few < 4 then .truncated else .malformed))
  | '\\' :: letter :: rest =>
    match escaped? letter with
    | some value => scan (.char value :: before) rest
    | none => (before.reverse, .broken .malformed)
  | c :: rest =>
    if c.toNat < 32 then (before.reverse, .broken .malformed) else scan (.char c :: before) rest

/-- Whether a unit is the first of a pair. -/
def isLeading (unit : Nat) : Bool :=
  0xd800 ≤ unit && unit ≤ 0xdbff

/-- Whether a unit is the second of a pair. -/
def isTrailing (unit : Nat) : Bool :=
  0xdc00 ≤ unit && unit ≤ 0xdfff

/-- The character of a pair of units. -/
def paired (leading trailing : Nat) : Char :=
  Char.ofNat ((leading - 0xd800) * 1024 + (trailing - 0xdc00) + 0x10000)

/-- The string that pieces spell before an ending; `before` holds its characters already
known, latest first. A unit of a pair that stands alone is malformed. -/
def join (ending : Ending) (before : List Char) : List Piece → Except Fault String
  | [] =>
    match ending with
    | .closed _ => .ok (String.ofList before.reverse)
    | .broken fault => .error fault
  | .char c :: rest => join ending (c :: before) rest
  | [.unit value] =>
    if isTrailing value then
      .error .malformed
    else if isLeading value then
      match ending with
      | .closed _ => .error .malformed
      | .broken fault => .error fault
    else
      join ending (Char.ofNat value :: before) []
  | .unit value :: next :: rest =>
    if isTrailing value then
      .error .malformed
    else if isLeading value then
      match next with
      | .unit second =>
        if isTrailing second then join ending (paired value second :: before) rest
        else .error .malformed
      | .char _ => .error .malformed
    else
      join ending (Char.ofNat value :: before) (next :: rest)

namespace Ending

/-- The text after a string that ends so; after a fault nothing is read. -/
def rest : Ending → List Char
  | .closed rest => rest
  | .broken _ => []

/-- The fault that every reader of the string meets, if there is one. -/
def fault? : Ending → Option Fault
  | .closed _ => none
  | .broken fault => some fault

end Ending

/-- The string after an opening quote, with the text after it. -/
def content (text : List Char) : Except Flaw String × List Char :=
  let (pieces, ending) := scan [] text
  match join ending [] pieces with
  | .ok value => (.ok value, ending.rest)
  | .error fault => (.error ⟨fault, ending.fault?⟩, ending.rest)

/-! ### Writing -/

/-- A hexadecimal digit. -/
def hexDigit (value : Nat) : Char :=
  if value < 10 then Char.ofNat (value + '0'.toNat) else Char.ofNat (value - 10 + 'a'.toNat)

/-- A character as it is written between quotes. -/
def escape (c : Char) : List Char :=
  match c with
  | '"' => ['\\', '"']
  | '\\' => ['\\', '\\']
  | '\x08' => ['\\', 'b']
  | '\x0c' => ['\\', 'f']
  | '\n' => ['\\', 'n']
  | '\r' => ['\\', 'r']
  | '\t' => ['\\', 't']
  | c =>
    if c.toNat < 32 then ['\\', 'u', '0', '0', hexDigit (c.toNat / 16), hexDigit (c.toNat % 16)]
    else [c]

/-- A string with its quotes. -/
def write (value : String) : String :=
  "\"" ++ String.ofList (value.toList.flatMap escape) ++ "\""

end Quoted

end Json

end SourceMapIndex
