import SourceMapIndex.Mappings.Cursor
import SourceMapIndex.Mappings.Basic
import SourceMapIndex.Vlq.Encoding

/-!
# Writing mapping strings

The usual text of a list of generated lines. Every record is written as its steps from the
record before it, a name as its step from the name that was used last. A record that only
moves the generated column may be written short, with that step alone.

## Main definitions

- `Mappings.Record` — a mapping as a writer has it, inside its generated line
- `Record.after` — the running values after a record
- `Record.segment` — the segment that leads to a record
- `Mappings.encode` — the mapping string of a list of generated lines
-/

namespace SourceMapIndex

/-- The text of a segment. -/
def Segment.text (segment : Segment) : String :=
  String.ofList (Vlq.encodeAll segment.fields)

namespace Mappings

/-- A mapping as a writer has it, inside its generated line. -/
structure Record where
  /-- The column in the generated line. -/
  generatedColumn : UInt32
  /-- The index of the source. -/
  source : Int64
  /-- The location in that source. -/
  origin : Location
  /-- The index of the name, if there is one. -/
  name : Option Int64
  /-- Whether to write the record short if that is possible. -/
  short : Bool := false
deriving DecidableEq

namespace Record

/-- The running values after a record; a record without a name keeps the name before it. -/
def after (record : Record) (before : Cursor) : Cursor where
  generatedColumn := record.generatedColumn.toNat
  source := record.source.toInt
  line := record.origin.line.toNat
  column := record.origin.column.toNat
  name := (record.name.map Int64.toInt).getD before.name

/-- Whether a record moves nothing but the generated column, and has no name. -/
def isPlain (record : Record) (before : Cursor) : Bool :=
  record.name.isNone && record.source.toInt == before.source
    && (record.origin.line.toNat : Int) == before.line
    && (record.origin.column.toNat : Int) == before.column

/-- The segment that leads from the values before a record to the record. -/
def segment (record : Record) (before : Cursor) : Segment :=
  let after := record.after before
  let generatedColumn := after.generatedColumn - before.generatedColumn
  let source := after.source - before.source
  let line := after.line - before.line
  let column := after.column - before.column
  match record.name with
  | some name => .named generatedColumn source line column (name.toInt - before.name)
  | none =>
    if record.short && record.isPlain before then .minimal generatedColumn
    else .full generatedColumn source line column

/-- The mapping of a record in a generated line. -/
def mapping (record : Record) (line : UInt32) : Mapping where
  generated := ⟨line, record.generatedColumn⟩
  source := record.source.toInt
  origin := record.origin
  name := record.name.map Int64.toInt

end Record

/-- The tokens of a generated line, and the running values after it. -/
def encodeLine (before : Cursor) : List Record → List String × Cursor
  | [] => ([], before)
  | record :: rest =>
    let (tokens, after) := encodeLine (record.after before) rest
    ((record.segment before).text :: tokens, after)

/-- The texts of generated lines, which start with the given running values. -/
def encodeLines (before : Cursor) : List (List Record) → List String
  | [] => []
  | line :: rest =>
    let (tokens, after) := encodeLine before.startLine line
    Text.join ',' tokens :: encodeLines after rest

/-- The mapping string of a list of generated lines. -/
def encode (lines : List (List Record)) : String :=
  Text.join ';' (encodeLines {} lines)

/-- The second record of the last line goes back to an earlier column and takes the short
form. -/
example :
    encode [[⟨4, 0, ⟨1, 2⟩, none, false⟩], [], [⟨9, 0, ⟨0, 2⟩, some 3, false⟩,
        ⟨8, 0, ⟨0, 2⟩, none, true⟩]] = "IACE;;SADAG,D" := by
  cbv

end Mappings

end SourceMapIndex
