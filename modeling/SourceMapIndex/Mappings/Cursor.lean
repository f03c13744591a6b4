import SourceMapIndex.Location
import SourceMapIndex.Mappings.Segment
import SourceMapIndex.Word

/-!
# The cursor

Segments are written as steps, so a decoder keeps the values they start from. The generated
column starts anew on every generated line; the other values go on from line to line.

The running values are signed words of sixty-four bits, and their sums wrap around. A line or
a column is checked after every step, so it never comes near the ends of that range. The
indices of the source and of the name are not checked here.

## Main definitions

- `Cursor` — the running values
- `Cursor.startLine` — the values at the start of a generated line
- `Cursor.move` — the values after a segment's steps
- `Mapping` — what a segment says: a generated location and where it came from
- `Cursor.apply` — a segment read at the cursor
-/

namespace SourceMapIndex

/-- What a segment says, with the values of its cursor in place of steps. -/
structure Mapping where
  /-- The location in the generated text. -/
  generated : Location
  /-- The index of the source; any signed word of sixty-four bits. -/
  source : Int
  /-- The location in the source. -/
  origin : Location
  /-- The index of the name, if the segment has one. -/
  name : Option Int
deriving DecidableEq

/-- The running values that segments move. -/
structure Cursor where
  /-- The column in the generated line. -/
  generatedColumn : Int := 0
  /-- The index of the source. -/
  source : Int := 0
  /-- The line in the source. -/
  line : Int := 0
  /-- The column in that line. -/
  column : Int := 0
  /-- The index of the name that was used last. -/
  name : Int := 0
deriving DecidableEq, Inhabited

/-- The word that a position's value is, or the reason why it is none. -/
def PositionField.word (field : PositionField) (value : Int) : Except Reason UInt32 :=
  match Word.ofInt? value with
  | some w => .ok w
  | none => .error (.positionOutOfRange field value)

namespace Cursor

/-- The values at the start of a generated line. -/
def startLine (cursor : Cursor) : Cursor :=
  { cursor with generatedColumn := 0 }

/-- The values after the steps of a segment. -/
def move (cursor : Cursor) : Segment → Cursor
  | .minimal generatedColumn =>
    { cursor with generatedColumn := Word.wrap (cursor.generatedColumn + generatedColumn) }
  | .full generatedColumn source line column =>
    { cursor with
      generatedColumn := Word.wrap (cursor.generatedColumn + generatedColumn)
      source := Word.wrap (cursor.source + source)
      line := Word.wrap (cursor.line + line)
      column := Word.wrap (cursor.column + column) }
  | .named generatedColumn source line column name =>
    { generatedColumn := Word.wrap (cursor.generatedColumn + generatedColumn)
      source := Word.wrap (cursor.source + source)
      line := Word.wrap (cursor.line + line)
      column := Word.wrap (cursor.column + column)
      name := Word.wrap (cursor.name + name) }

theorem generatedColumn_move (cursor : Cursor) (segment : Segment) :
    (cursor.move segment).generatedColumn =
      Word.wrap (cursor.generatedColumn + segment.generatedColumn) := by
  cases segment <;> rfl

/-- The name of a mapping whose segment has brought the cursor here. -/
def nameFor (cursor : Cursor) : Segment → Option Int
  | .named .. => some cursor.name
  | .minimal .. | .full .. => none

/-- The mapping at the cursor on a generated line. The positions are checked in the order
generated column, source line, source column. -/
def mapping (cursor : Cursor) (line : UInt32) (name : Option Int) : Except Reason Mapping := do
  let generatedColumn ← PositionField.generatedColumn.word cursor.generatedColumn
  let sourceLine ← PositionField.sourceLine.word cursor.line
  let sourceColumn ← PositionField.sourceColumn.word cursor.column
  return {
    generated := ⟨line, generatedColumn⟩
    source := cursor.source
    origin := ⟨sourceLine, sourceColumn⟩
    name }

/-- The mapping of a segment on a generated line, and the cursor after it. A segment that
leads out of range leaves the cursor where it was. -/
def apply (cursor : Cursor) (line : UInt32) (segment : Segment) :
    Except Reason Mapping × Cursor :=
  let moved := cursor.move segment
  match moved.mapping line (moved.nameFor segment) with
  | .ok mapping => (.ok mapping, moved)
  | .error reason => (.error reason, cursor)

end Cursor

end SourceMapIndex
