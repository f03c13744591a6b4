import SourceMapIndex.Text.Parts
import SourceMapIndex.Word

/-!
# Mapping strings

A mapping string has a group for every generated line, and groups stand between semicolons.
A group has a token for every segment, and tokens stand between commas. A blank text has no
parts: the empty string has no groups, and a blank group has no tokens.

## Main definitions

- `Group` — the part of a mapping string that belongs to one generated line
- `Mappings.groups` — the groups of a mapping string
- `Group.tokens` — the tokens of a group
- `Mappings.Step` — a group or a token met on the way through a mapping string
- `Mappings.steps` — the groups and tokens of a mapping string in the order of the text
-/

namespace SourceMapIndex

/-- The part of a mapping string that belongs to one generated line. -/
structure Group where
  /-- The generated line; lines past the largest word are counted as that word. -/
  line : UInt32
  /-- The text of the group. -/
  text : String
deriving DecidableEq

namespace Group

/-- Whether the group has no text, and so no tokens. -/
def isBlank (group : Group) : Bool :=
  group.text.isEmpty

/-- The tokens of a group. -/
def tokens (group : Group) : List String :=
  Text.parts ',' group.text

end Group

namespace Mappings

/-- The groups of a mapping string. -/
def groups (mappings : String) : List Group :=
  (Text.parts ';' mappings).zipIdx.map fun (text, i) => ⟨Word.saturate i, text⟩

/-- A group or a token met on the way through a mapping string. -/
inductive Step where
  /-- A group begins. -/
  | line (line : UInt32)
  /-- A token of the group that began last, with its place among the tokens of the group. -/
  | token (line : UInt32) (segment : Nat) (text : String)
deriving DecidableEq

/-- The steps of one group: its beginning, then its tokens. -/
def stepsOf (group : Group) : List Step :=
  .line group.line :: group.tokens.zipIdx.map fun (token, i) => .token group.line i token

/-- The groups and tokens of a mapping string in the order of the text. -/
def steps (mappings : String) : List Step :=
  (groups mappings).flatMap stepsOf

/-- A trailing semicolon begins a blank group. -/
example : groups "A;" = [⟨0, "A"⟩, ⟨1, ""⟩] := by cbv

/-- A blank group has no tokens, a trailing comma begins an empty one. -/
example : steps ";A," = [.line 0, .line 1, .token 1 0 "A", .token 1 1 ""] := by cbv

end Mappings

end SourceMapIndex
