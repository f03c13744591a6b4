import SourceMapIndex.Failure

/-!
# Segments

A segment moves the positions that the decoder keeps. It has one field, the step of the
generated column; or four, with the steps of the source and of the line and the column
there; or five, with the step of the name.

## Main definitions

- `Segment` — the three shapes of a segment
- `Segment.ofFields?` — the segment with given fields
- `Segment.Tally` — the fields of a token as they are read
- `Segment.parse` — the segment that a token spells
-/

namespace SourceMapIndex

/-- A segment; its fields are steps from the values before it. -/
inductive Segment where
  /-- A move of the generated column. -/
  | minimal (generatedColumn : Int)
  /-- A move of the generated column and of the origin. -/
  | full (generatedColumn source line column : Int)
  /-- A move of the generated column, of the origin and of the name. -/
  | named (generatedColumn source line column name : Int)
deriving DecidableEq

namespace Segment

/-- The step of the generated column, which every segment has. -/
def generatedColumn : Segment → Int
  | .minimal generatedColumn => generatedColumn
  | .full generatedColumn .. => generatedColumn
  | .named generatedColumn .. => generatedColumn

/-- The fields of a segment, in the order of the text. -/
def fields : Segment → List Int
  | .minimal generatedColumn => [generatedColumn]
  | .full generatedColumn source line column => [generatedColumn, source, line, column]
  | .named generatedColumn source line column name => [generatedColumn, source, line, column, name]

theorem generatedColumn_mem_fields (segment : Segment) :
    segment.generatedColumn ∈ segment.fields := by
  cases segment <;> exact .head _

/-- The segment with given fields, if their number is one, four or five. -/
def ofFields? : List Int → Option Segment
  | [generatedColumn] => some (.minimal generatedColumn)
  | [generatedColumn, source, line, column] => some (.full generatedColumn source line column)
  | [generatedColumn, source, line, column, name] =>
    some (.named generatedColumn source line column name)
  | _ => none

/-- The fields of a token that have been read: the first five, zeros in place of those that
are missing, and the number of them all. -/
structure Tally where
  slots : Vector Int 5 := .replicate 5 0
  count : Nat := 0

namespace Tally

/-- Counts one more field, and keeps it if it is among the first five. -/
def push (tally : Tally) (value : Int) : Tally where
  slots := tally.slots.setIfInBounds tally.count value
  count := tally.count + 1

/-- The segment with the fields that have been read, if their number is one, four or five. -/
def segment? (tally : Tally) : Option Segment :=
  let slots := tally.slots
  match tally.count with
  | 1 => some (.minimal slots[0])
  | 4 => some (.full slots[0] slots[1] slots[2] slots[3])
  | 5 => some (.named slots[0] slots[1] slots[2] slots[3] slots[4])
  | _ => none

end Tally

/-- The segment that a token spells. No list of its fields is made: there may be any number of
them, and five are kept at most. -/
def parse (token : String) : Except Reason Segment :=
  match (Vlq.Reader.ofString token).foldl Tally.push {} with
  | .error fault => .error (.malformedSegment token fault)
  | .ok tally =>
    match tally.segment? with
    | some segment => .ok segment
    | none => .error (.fieldCount token tally.count)

/-- A segment is determined by its fields. -/
theorem ofFields?_eq_some_iff {fields : List Int} {segment : Segment} :
    ofFields? fields = some segment ↔ fields = segment.fields := by
  constructor
  · intro h
    unfold ofFields? at h
    split at h
    · rw [← Option.some.inj h]
      rfl
    · rw [← Option.some.inj h]
      rfl
    · rw [← Option.some.inj h]
      rfl
    · simp at h
  · rintro rfl
    cases segment <;> rfl

end Segment

end SourceMapIndex
