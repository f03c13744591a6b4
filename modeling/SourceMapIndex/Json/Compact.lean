import SourceMapIndex.Json.Quoted

/-!
# Compact JSON text

Writes a value without blanks, the members of an object in their order.

## Main definitions

- `Json.compact` — the text of a value
-/

namespace SourceMapIndex

namespace Json

/-- A number as it is written. -/
def Number.text : Number → String
  | .int value => toString value
  | .real text => text

mutual

/-- The text `before`, followed by that of a value. -/
def append (before : String) : Json → String
  | .null => before ++ "null"
  | .bool true => before ++ "true"
  | .bool false => before ++ "false"
  | .number value => before ++ value.text
  | .string value => before ++ Quoted.write value
  | .array items => appendItems (before ++ "[") items ++ "]"
  | .object members => appendMembers (before ++ "\x7b") members ++ "\x7d"

/-- The text `before`, followed by those of values with commas between them. -/
def appendItems (before : String) : List Json → String
  | [] => before
  | [item] => append before item
  | item :: rest => appendItems (append before item ++ ",") rest

/-- The text `before`, followed by those of members with commas between them. -/
def appendMembers (before : String) : List (String × Json) → String
  | [] => before
  | [(key, value)] => append (before ++ Quoted.write key ++ ":") value
  | (key, value) :: rest =>
    appendMembers (append (before ++ Quoted.write key ++ ":") value ++ ",") rest

end

/-- The text of a value, without blanks. -/
def compact (value : Json) : String :=
  append "" value

/-- The integer with the given value. -/
def ofInt (value : Int) : Json :=
  .number (.int value)

/-- The integer with the given value. -/
def ofNat (value : Nat) : Json :=
  .ofInt value

end Json

end SourceMapIndex
