/-!
# JSON values

A JSON value, with the members of an object in the order of the text, and the ways in which
a text can fail to be the value that is wanted.

## Main definitions

- `Json.Number` — a number, as an integer or as it is written
- `Json` — a value
- `Json.Fault` — what is wrong with a text
- `Json.Flaw` — a fault inside a value, for a reader of the value and for one that skips it
- `Json.Draft` — the value that a text spells as far as it does, with its faults in their
  places
-/

namespace SourceMapIndex

namespace Json

/-- A number. An integer of at most sixty-four bits that is written without a fraction and
without an exponent is known by its value, any other number by its text. -/
inductive Number where
  /-- An integer. -/
  | int (value : Int)
  /-- A number that is known by its text. -/
  | real (text : String)
deriving DecidableEq

end Json

/-- A JSON value. -/
inductive Json where
  | null
  | bool (value : Bool)
  | number (value : Json.Number)
  | string (value : String)
  | array (items : List Json)
  | object (members : List (String × Json))

namespace Json

instance : Inhabited Json where
  default := .null

/-- What is wrong with a text that should spell a value of some kind. -/
inductive Fault where
  /-- The text ends too early. -/
  | truncated
  /-- The text is not JSON. -/
  | malformed
  /-- The value is not of the kind that is wanted. -/
  | mismatched
deriving DecidableEq

/-- A fault inside a string or a number. -/
structure Flaw where
  /-- The fault that a reader of the value meets. -/
  fault : Fault
  /-- The fault that a reader who skips the value meets, if that reader meets one. -/
  skipped : Option Fault
deriving DecidableEq

/-- The value that a text spells, as far as it spells one. Every fault of the text stands
where a reader from left to right meets it, and nothing stands after a fault that no reader
passes. -/
inductive Draft where
  | null
  | bool (value : Bool)
  | number (value : Number)
  | string (value : String)
  /-- A string, a number, a word or a gap that has a fault. -/
  | flawed (flaw : Flaw)
  /-- The items of an array, with the fault that breaks the array off, if one does. -/
  | array (items : List Draft) (ending : Option Fault)
  /-- The members of an object, with the fault that breaks the object off, if one does. -/
  | object (members : List (Except Flaw String × Draft)) (ending : Option Fault)

namespace Draft

instance : Inhabited Draft where
  default := .null

/-- A place where a value should stand and every reader meets the same fault. -/
def broken (fault : Fault) : Draft :=
  .flawed ⟨fault, some fault⟩

end Draft

end Json

end SourceMapIndex
