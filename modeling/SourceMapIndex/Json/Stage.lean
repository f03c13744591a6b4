import SourceMapIndex.Json.Remainder

/-!
# From tokens to drafts

A JSON text is read token by token. What has been read is a stage: the part that may come
next, inside the arrays and objects that are open around it. A token that may not come there
closes everything with a fault.

## Main definitions

- `Frame` — an array or an object around the place that is being read
- `Stage` — how far a text has been read
- `Stage.step` — the stage after a token
- `Stage.finish` — the draft of a text that ends at a stage
- `Draft.ofText` — the draft of a text
- `Json.parse` — the value of a text
-/

namespace SourceMapIndex

namespace Json

/-- An array or an object around the place that is being read, with its parts before that
place, latest first. -/
inductive Frame where
  | array (before : List Draft)
  | object (before : List (Except Flaw String × Draft)) (key : Except Flaw String)

/-- How far a text has been read. -/
inductive Stage where
  /-- A value comes next. -/
  | atValue (outer : List Frame)
  /-- An array has been read so far; `fresh` if only its bracket has. -/
  | inArray (before : List Draft) (fresh : Bool) (outer : List Frame)
  /-- An object has been read so far; `fresh` if only its bracket has. -/
  | inObject (before : List (Except Flaw String × Draft)) (fresh : Bool) (outer : List Frame)
  /-- The key of a member comes next. -/
  | atKey (before : List (Except Flaw String × Draft)) (outer : List Frame)
  /-- The colon of a member comes next. -/
  | atColon (before : List (Except Flaw String × Draft)) (key : Except Flaw String)
      (outer : List Frame)
  /-- The value is complete, and `trailing` says whether something follows it. -/
  | done (result : Draft) (trailing : Bool)

namespace Stage

/-- The stage after a value. -/
def put (value : Draft) : List Frame → Stage
  | [] => .done value false
  | .array before :: outer => .inArray (value :: before) false outer
  | .object before key :: outer => .inObject ((key, value) :: before) false outer

/-- The draft of which `value` is the last part, everything around it being broken off. -/
def enclose (fault : Fault) (value : Draft) : List Frame → Draft
  | [] => value
  | .array before :: outer => enclose fault (.array (value :: before).reverse (some fault)) outer
  | .object before key :: outer =>
    enclose fault (.object ((key, value) :: before).reverse (some fault)) outer

/-- The stage after a fault in place of a token that may come next. -/
def stop (fault : Fault) (value : Draft) (outer : List Frame) : Stage :=
  .done (enclose fault value outer) false

/-- The stage after a token in the place of a value. -/
def begin (outer : List Frame) : Token → Stage
  | .leaf value => put value outer
  | .string (.ok value) => put (.string value) outer
  | .string (.error flaw) => put (.flawed flaw) outer
  | .beginArray => .inArray [] true outer
  | .beginObject => .inObject [] true outer
  | .endArray | .endObject | .colon | .comma => stop .malformed (.broken .malformed) outer

/-- The stage after a token. -/
def step : Stage → Token → Stage
  | .atValue outer, token => begin outer token
  | .inArray before _ outer, .endArray => put (.array before.reverse none) outer
  | .inArray before true outer, token => begin (.array before :: outer) token
  | .inArray before false outer, .comma => .atValue (.array before :: outer)
  | .inArray before false outer, _ =>
    stop .malformed (.array before.reverse (some .malformed)) outer
  | .inObject before _ outer, .endObject => put (.object before.reverse none) outer
  | .inObject before true outer, .string key => .atColon before key outer
  | .inObject before false outer, .comma => .atKey before outer
  | .inObject before _ outer, _ =>
    stop .malformed (.object before.reverse (some .malformed)) outer
  | .atKey before outer, .string key => .atColon before key outer
  | .atKey before outer, _ => stop .malformed (.object before.reverse (some .malformed)) outer
  | .atColon before key outer, .colon => .atValue (.object before key :: outer)
  | .atColon before key outer, _ =>
    stop .malformed (.broken .malformed) (.object before key :: outer)
  | .done result _, _ => .done result true

/-- The draft of a text that ends at a stage, and whether something follows its value. -/
def finish : Stage → Draft × Bool
  | .atValue outer => (enclose .truncated (.broken .truncated) outer, false)
  | .inArray before _ outer =>
    (enclose .truncated (.array before.reverse (some .truncated)) outer, false)
  | .inObject before _ outer =>
    (enclose .truncated (.object before.reverse (some .truncated)) outer, false)
  | .atKey before outer =>
    (enclose .truncated (.object before.reverse (some .truncated)) outer, false)
  | .atColon before key outer =>
    (enclose .truncated (.broken .truncated) (.object before key :: outer), false)
  | .done result trailing => (result, trailing)

/-- The stage after all the tokens of a text. -/
def read (stage : Stage) (text : List Char) : Stage :=
  match _h : Token.next? text with
  | none => stage
  | some (token, rest) => (stage.step token).read rest
termination_by text.length
decreasing_by exact Token.length_of_next? _h

end Stage

namespace Draft

/-- The draft of a text, and whether something other than blanks follows its value. -/
def ofText (text : String) : Draft × Bool :=
  (Stage.read (.atValue []) text.toList).finish

mutual

/-- The value that a draft spells, or the first fault that a reader of all of it meets. -/
def toJson : Draft → Except Fault Json
  | .null => .ok .null
  | .bool value => .ok (.bool value)
  | .number value => .ok (.number value)
  | .string value => .ok (.string value)
  | .flawed flaw => .error flaw.fault
  | .array items ending => do
    let items ← itemsToJson items
    match ending with
    | none => return .array items
    | some fault => .error fault
  | .object members ending => do
    let members ← membersToJson members
    match ending with
    | none => return .object members
    | some fault => .error fault

/-- The values that drafts spell. -/
def itemsToJson : List Draft → Except Fault (List Json)
  | [] => .ok []
  | item :: rest => do
    let item ← item.toJson
    let rest ← itemsToJson rest
    return item :: rest

/-- The members that drafts spell. -/
def membersToJson : List (Except Flaw String × Draft) → Except Fault (List (String × Json))
  | [] => .ok []
  | (.error flaw, _) :: _ => .error flaw.fault
  | (.ok key, value) :: rest => do
    let value ← value.toJson
    let rest ← membersToJson rest
    return (key, value) :: rest

end

mutual

/-- The draft of a value, which has no faults. -/
def ofJson : Json → Draft
  | .null => .null
  | .bool value => .bool value
  | .number value => .number value
  | .string value => .string value
  | .array items => .array (ofItems items) none
  | .object members => .object (ofMembers members) none

/-- The drafts of values. -/
def ofItems : List Json → List Draft
  | [] => []
  | item :: rest => ofJson item :: ofItems rest

/-- The drafts of members. -/
def ofMembers : List (String × Json) → List (Except Flaw String × Draft)
  | [] => []
  | (key, value) :: rest => (.ok key, ofJson value) :: ofMembers rest

end

end Draft

/-- The value of a text. -/
def parse (text : String) : Except Fault Json := do
  let (draft, trailing) := Draft.ofText text
  let value ← draft.toJson
  if trailing then .error .malformed else return value

end Json

end SourceMapIndex
