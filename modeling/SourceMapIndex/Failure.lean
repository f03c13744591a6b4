import SourceMapIndex.Vlq.Message

/-!
# Failures

Why a source map has no index, and where in its mapping string the trouble stands.

## Main definitions

- `PositionField` — the positions that a segment moves
- `Reason` — what is wrong
- `Reason.message` — the reason in words
- `Reason.concernsSegment`, `Reason.concernsTable` — what kind of thing the reason speaks of
- `Failure` — a reason and the segment it stands at
- `Failure.message` — the failure in words
-/

namespace SourceMapIndex

/-- The positions that a segment moves. -/
inductive PositionField where
  /-- The column in the generated line. -/
  | generatedColumn
  /-- The line in the source. -/
  | sourceLine
  /-- The column in the line of the source. -/
  | sourceColumn
deriving DecidableEq

namespace PositionField

/-- The field in words. -/
def description : PositionField → String
  | .generatedColumn => "generated column"
  | .sourceLine => "original line"
  | .sourceColumn => "original column"

end PositionField

/-- Why a source map has no index. -/
inductive Reason where
  /-- A segment's text is not a row of integers. -/
  | malformedSegment (token : String) (fault : Vlq.Fault)
  /-- A segment has a number of fields other than one, four or five. -/
  | fieldCount (token : String) (count : Nat)
  /-- A segment's text is empty. -/
  | emptySegment
  /-- A position left the range of words. -/
  | positionOutOfRange (field : PositionField) (value : Int)
  /-- No source stands at the index. -/
  | sourceOutOfRange (index : Int) (size : Nat)
  /-- No name stands at the index. -/
  | nameOutOfRange (index : Int) (size : Nat)
  /-- The map declares a version that is not read. -/
  | unsupportedVersion (version : UInt32)
deriving DecidableEq

namespace Reason

/-- The reason in words. -/
def message : Reason → String
  | .malformedSegment token fault => "malformed segment `" ++ token ++ "`: " ++ fault.message
  | .fieldCount token count =>
    "segment `" ++ token ++ "` has " ++ toString count ++ " fields, expected 1, 4 or 5"
  | .emptySegment => "empty segment"
  | .positionOutOfRange field value => field.description ++ " out of range: " ++ toString value
  | .sourceOutOfRange index size =>
    "source index " ++ toString index ++ " out of range (" ++ toString size ++ " sources)"
  | .nameOutOfRange index size =>
    "name index " ++ toString index ++ " out of range (" ++ toString size ++ " names)"
  | .unsupportedVersion version =>
    "unsupported source map version " ++ toString version.toNat ++ ", expected 3"

/-- Whether a segment by itself could not be turned into a position. -/
def concernsSegment : Reason → Bool
  | .malformedSegment .. | .fieldCount .. | .emptySegment | .positionOutOfRange .. => true
  | .sourceOutOfRange .. | .nameOutOfRange .. | .unsupportedVersion .. => false

/-- Whether a source or a name was missing from its table. -/
def concernsTable : Reason → Bool
  | .sourceOutOfRange .. | .nameOutOfRange .. => true
  | .malformedSegment .. | .fieldCount .. | .emptySegment | .positionOutOfRange ..
  | .unsupportedVersion .. => false

/-- The fault beneath the reason, if there is one. -/
def cause? : Reason → Option Vlq.Fault
  | .malformedSegment _ fault => some fault
  | .fieldCount .. | .emptySegment | .positionOutOfRange .. | .sourceOutOfRange ..
  | .nameOutOfRange .. | .unsupportedVersion .. => none

end Reason

/-- A reason, and the segment of the mapping string that it stands at. -/
structure Failure where
  /-- What is wrong. -/
  reason : Reason
  /-- The generated line of the segment. -/
  line : UInt32
  /-- The place of the segment in its line, counted from zero. -/
  segment : Nat
deriving DecidableEq

namespace Failure

/-- The failure in words. -/
def message (failure : Failure) : String :=
  failure.reason.message ++ " (generated line " ++ toString failure.line.toNat ++ ", segment "
    ++ toString failure.segment ++ ")"

end Failure

end SourceMapIndex
