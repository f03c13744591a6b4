import SourceMapIndex.Mappings.Cursor
import SourceMapIndex.Mappings.Basic

/-!
# The decoder

Reads a mapping string from left to right, one mapping at a time. Every token is a segment;
the first token that is none ends the reading.

## Main definitions

- `Decoder.Progress` — what the decoder knows of the text behind it
- `Decoder` — the steps ahead, and the progress
- `Decoder.next` — the next mapping, or the failure that ends the reading
- `Decoder.run` — everything that is left, handed on mapping by mapping
- `Mappings.decode` — the mappings of a mapping string

## Design notes

The groups and tokens ahead are one list of steps, so a decoder that has nothing to read has
no steps, whether it came to the end of the text or to a failure, and every reading is a
recursion on that list.
-/

namespace SourceMapIndex

namespace Decoder

/-- What a decoder knows of the text behind it. -/
structure Progress where
  /-- The running values. -/
  cursor : Cursor := {}
  /-- The number of generated lines begun; it stops at the largest word. -/
  lineCount : UInt32 := 0
  /-- The generated line of the last mapping, and the place of its segment in that line. -/
  lastSegment : UInt32 × Nat := (0, 0)
  /-- The places of the empty tokens met. There is at most one, since it ends the reading. -/
  emptyTokens : List (UInt32 × Nat) := []
deriving DecidableEq, Inhabited

namespace Progress

/-- The progress after the beginning of a group. -/
def startLine (progress : Progress) (line : UInt32) : Progress :=
  { progress with cursor := progress.cursor.startLine, lineCount := Word.next line }

/-- The mapping of a token, and the progress after it. An empty token is taken down before
it fails. -/
def read (progress : Progress) (line : UInt32) (segment : Nat) (token : String) :
    Except Failure Mapping × Progress :=
  if token.isEmpty then
    (.error ⟨.emptySegment, line, segment⟩,
      { progress with emptyTokens := progress.emptyTokens ++ [(line, segment)] })
  else
    match Segment.parse token with
    | .error reason => (.error ⟨reason, line, segment⟩, progress)
    | .ok parsed =>
      match progress.cursor.apply line parsed with
      | (.error reason, cursor) =>
        (.error ⟨reason, line, segment⟩, { progress with cursor })
      | (.ok mapping, cursor) =>
        (.ok mapping, { progress with cursor, lastSegment := (line, segment) })

end Progress

end Decoder

/-- A mapping string that is being read from left to right. -/
structure Decoder where
  /-- The groups and tokens ahead. -/
  steps : List Mappings.Step
  /-- What is known of the text behind. -/
  progress : Decoder.Progress := {}
deriving DecidableEq

namespace Decoder

/-- A mapping string from its start. -/
def ofString (mappings : String) : Decoder where
  steps := Mappings.steps mappings

/-- The number of generated lines begun. -/
def lineCount (decoder : Decoder) : UInt32 :=
  decoder.progress.lineCount

/-- The generated line of the last mapping, and the place of its segment in that line. -/
def lastSegment (decoder : Decoder) : UInt32 × Nat :=
  decoder.progress.lastSegment

/-- The places of the empty tokens met. -/
def emptyTokens (decoder : Decoder) : List (UInt32 × Nat) :=
  decoder.progress.emptyTokens

/-- What comes next when the given steps are ahead. -/
def advance : List Mappings.Step → Progress → Option (Except Failure Mapping) × Decoder
  | [], progress => (none, ⟨[], progress⟩)
  | .line line :: rest, progress => advance rest (progress.startLine line)
  | .token line segment text :: rest, progress =>
    match progress.read line segment text with
    | (.error failure, after) => (some (.error failure), ⟨[], after⟩)
    | (.ok mapping, after) => (some (.ok mapping), ⟨rest, after⟩)

/-- The next mapping, or the failure that ends the reading; at the end of the text there is
none. With it comes the decoder for what follows. -/
def next (decoder : Decoder) : Option (Except Failure Mapping) × Decoder :=
  advance decoder.steps decoder.progress

/-- What became of a text that was read to its end or to a failure. -/
structure Outcome (σ : Type) where
  /-- What the reading has built. -/
  state : σ
  /-- The failure that ended it, if any. -/
  failure : Option Failure
  /-- What is known of the text that was read. -/
  progress : Progress
deriving DecidableEq

/-- Reads the given steps. Every mapping is handed to `use`, with the progress after it; the
reading ends with the steps, with the first failure of a token, or with the first failure of
`use`. -/
def run {σ : Type} (use : σ → Mapping → Progress → Except Failure σ) :
    List Mappings.Step → Progress → σ → Outcome σ
  | [], progress, state => ⟨state, none, progress⟩
  | .line line :: rest, progress, state => run use rest (progress.startLine line) state
  | .token line segment text :: rest, progress, state =>
    match progress.read line segment text with
    | (.error failure, after) => ⟨state, some failure, after⟩
    | (.ok mapping, after) =>
      match use state mapping after with
      | .error failure => ⟨state, some failure, after⟩
      | .ok state => run use rest after state

end Decoder

namespace Mappings

/-- The mappings of a mapping string up to its first failure, in the order of the text. -/
def decode (mappings : String) : Decoder.Outcome (List Mapping) :=
  let outcome :=
    Decoder.run (fun before mapping _ => .ok (mapping :: before)) (steps mappings) {} []
  { outcome with state := outcome.state.reverse }

/-- A blank group counts as a line, and a failing segment moves nothing. -/
example : decode ";C,AC" =
    ⟨[⟨⟨1, 1⟩, 0, ⟨0, 0⟩, none⟩], some ⟨.fieldCount "AC" 2, 1, 1⟩,
      { cursor := { generatedColumn := 1 }, lineCount := 2, lastSegment := (1, 0) }⟩ := by
  cbv

end Mappings

end SourceMapIndex
