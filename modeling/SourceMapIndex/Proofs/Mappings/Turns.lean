import SourceMapIndex.Proofs.Mappings.Deltas

/-!
# Failed turns leave no trace

A cursor begins lines and reads segments, in any order. A segment that would lead a position
out of range fails, and then the cursor stays where it was. So the positions are words at every
time, and a row of operations comes to the same without its failures.

## Main definitions

- `Cursor.Operation` — a line to begin or a segment to read
- `Cursor.Turn` — an operation with its answer, and the cursor before and after it
- `Cursor.turns`, `Cursor.ending` — operations made one after the other
- `Cursor.Shows` — a mapping shows the running values
- `Cursor.kept` — the turns that do not fail
- `Turn.Lawful` — what a turn may do

## Main results

- `Cursor.lawful_of_mem_turns` — turns from a cursor in range are lawful
- `Cursor.turns_kept` — without the failures, the other turns are the same
-/

namespace SourceMapIndex

namespace PositionField

/-- The fields in the order in which they are checked. -/
def inOrder : List PositionField :=
  [.generatedColumn, .sourceLine, .sourceColumn]

/-- The running value of a position. -/
def valueAt (cursor : Cursor) : PositionField → Int
  | .generatedColumn => cursor.generatedColumn
  | .sourceLine => cursor.line
  | .sourceColumn => cursor.column

/-- The numbers of fields that a segment may have which moves the position. -/
def counts : PositionField → List Nat
  | .generatedColumn => [1, 4, 5]
  | .sourceLine | .sourceColumn => [4, 5]

/-- A segment moves a position by one of its fields, or leaves it where it is. -/
theorem valueAt_move (field : PositionField) (cursor : Cursor) (segment : Segment) :
    (segment.fields.length ∈ field.counts ∧
      ∃ step ∈ segment.fields,
        field.valueAt (cursor.move segment) = Word.wrap (field.valueAt cursor + step)) ∨
    field.valueAt (cursor.move segment) = field.valueAt cursor := by
  cases field with
  | generatedColumn =>
    refine Or.inl ⟨?_, segment.generatedColumn, segment.generatedColumn_mem_fields,
      cursor.generatedColumn_move segment⟩
    cases segment <;> simp [counts, Segment.fields]
  | sourceLine =>
    cases segment with
    | minimal => exact Or.inr rfl
    | full _ _ line | named _ _ line =>
      exact Or.inl ⟨by simp [counts, Segment.fields], line, by simp [Segment.fields], rfl⟩
  | sourceColumn =>
    cases segment with
    | minimal => exact Or.inr rfl
    | full _ _ _ column | named _ _ _ column =>
      exact Or.inl ⟨by simp [counts, Segment.fields], column, by simp [Segment.fields], rfl⟩

end PositionField

namespace Cursor

/-- The first position among the running values that is no word. -/
def firstOutOfRange? (cursor : Cursor) : Option PositionField :=
  PositionField.inOrder.find? fun field => ¬Word.Fits (field.valueAt cursor)

/-- A mapping on a generated line shows the running values that a segment has led to. -/
structure Shows (cursor : Cursor) (line : UInt32) (segment : Segment) (mapping : Mapping) :
    Prop where
  generatedLine : mapping.generated.line = line
  generatedColumn : (mapping.generated.column.toNat : Int) = cursor.generatedColumn
  source : mapping.source = cursor.source
  line : (mapping.origin.line.toNat : Int) = cursor.line
  column : (mapping.origin.column.toNat : Int) = cursor.column
  /-- Only a segment with five fields has a name. -/
  name : mapping.name = if segment.fields.length = 5 then some cursor.name else none

/-- What a cursor is told to do. -/
inductive Operation where
  | startLine
  | read (line : UInt32) (segment : Segment)

/-- An operation and what came of it. -/
structure Turn where
  before : Cursor
  operation : Operation
  /-- What a segment was read as; the beginning of a line has no answer. -/
  answer : Option (Except Reason Mapping)
  after : Cursor

def turn (cursor : Cursor) : Operation → Turn
  | .startLine => ⟨cursor, .startLine, none, cursor.startLine⟩
  | .read line segment =>
    let (answer, after) := cursor.apply line segment
    ⟨cursor, .read line segment, some answer, after⟩

/-- The turns of some operations, each with the cursor that the turn before it has left. -/
def turns : Cursor → List Operation → List Turn
  | _, [] => []
  | cursor, operation :: rest =>
    cursor.turn operation :: (cursor.turn operation).after.turns rest

/-- The cursor after some operations. -/
def ending (cursor : Cursor) (operations : List Operation) : Cursor :=
  operations.foldl (fun current operation => (current.turn operation).after) cursor

namespace Turn

def failed (turn : Turn) : Bool :=
  match turn.answer with
  | some (.error _) => true
  | some (.ok _) | none => false

/-- A turn does what its operation asks for, or fails and does nothing. -/
structure Lawful (turn : Turn) : Prop where
  inRange : turn.after.InRange
  /-- The beginning of a line takes the generated column back, and nothing else. -/
  startLine : turn.operation = .startLine →
    turn.answer = none ∧ turn.after = { turn.before with generatedColumn := 0 }
  /-- A segment is read if it leads to words, and the mapping shows them. -/
  read : ∀ line segment, turn.operation = .read line segment →
    (turn.before.move segment).InRange →
      turn.after = turn.before.move segment ∧
        ∃ mapping, turn.answer = some (.ok mapping) ∧ turn.after.Shows line segment mapping
  /-- Otherwise it fails with the first position that would be no word. -/
  fails : ∀ line segment, turn.operation = .read line segment →
    ¬(turn.before.move segment).InRange →
      turn.after = turn.before ∧
        ∃ field, (turn.before.move segment).firstOutOfRange? = some field ∧
          turn.answer = some (.error (.positionOutOfRange field
            (field.valueAt (turn.before.move segment)))) ∧
          (segment.fields.length = 1 → field = .generatedColumn)

end Turn

/-- The turns that do not fail. -/
def kept (cursor : Cursor) (operations : List Operation) : List Turn :=
  (cursor.turns operations).filter (!·.failed)

variable {cursor : Cursor}

/-! ### One turn -/

theorem flaw?_eq_firstOutOfRange? (cursor : Cursor) :
    cursor.flaw? = cursor.firstOutOfRange?.map fun field =>
      .positionOutOfRange field (field.valueAt cursor) := by
  unfold flaw? firstOutOfRange? PositionField.inOrder
  by_cases hgenerated : Word.Fits cursor.generatedColumn
  · by_cases hline : Word.Fits cursor.line
    · by_cases hcolumn : Word.Fits cursor.column
      · simp [PositionField.flaw?_of_fits, PositionField.valueAt, hgenerated, hline, hcolumn]
      · simp [PositionField.flaw?_of_fits, PositionField.flaw?_of_not_fits, PositionField.valueAt,
          hgenerated, hline, hcolumn]
    · simp [PositionField.flaw?_of_fits, PositionField.flaw?_of_not_fits, PositionField.valueAt,
        hgenerated, hline]
  · simp [PositionField.flaw?_of_not_fits, PositionField.valueAt, hgenerated]

theorem flaw?_eq_some_iff {reason : Reason} :
    cursor.flaw? = some reason ↔
      ∃ field, cursor.firstOutOfRange? = some field ∧
        reason = .positionOutOfRange field (field.valueAt cursor) := by
  rw [flaw?_eq_firstOutOfRange?, Option.map_eq_some_iff]
  exact exists_congr fun field => and_congr_right fun _ => eq_comm

theorem shows_mappingAt (h : cursor.InRange) (line : UInt32) (segment : Segment) :
    cursor.Shows line segment (cursor.mappingAt line (cursor.nameFor segment)) where
  generatedLine := rfl
  generatedColumn := Mappings.Token.toNat_ofNat_of_fits h.generatedColumn
  source := rfl
  line := Mappings.Token.toNat_ofNat_of_fits h.line
  column := Mappings.Token.toNat_ofNat_of_fits h.column
  name := by cases segment <;> rfl

/-- A segment that is read leads to words. One that is not leaves no trace. -/
theorem turn_read_cases (cursor : Cursor) (line : UInt32) (segment : Segment) :
    ((cursor.move segment).InRange ∧ ∃ mapping,
      (cursor.move segment).Shows line segment mapping ∧
        cursor.turn (.read line segment) =
          ⟨cursor, .read line segment, some (.ok mapping), cursor.move segment⟩) ∨
    (¬(cursor.move segment).InRange ∧ ∃ field,
      (cursor.move segment).firstOutOfRange? = some field ∧
        cursor.turn (.read line segment) =
          ⟨cursor, .read line segment, some (.error (.positionOutOfRange field
            (field.valueAt (cursor.move segment)))), cursor⟩) := by
  simp only [turn, apply_eq]
  cases hflaw : (cursor.move segment).flaw? with
  | none =>
    have hrange := (flaw?_eq_none_iff _).mp hflaw
    exact Or.inl ⟨hrange, _, shows_mappingAt hrange line segment, rfl⟩
  | some reason =>
    obtain ⟨field, hfield, rfl⟩ := flaw?_eq_some_iff.mp hflaw
    refine Or.inr ⟨?_, field, hfield, rfl⟩
    rw [← flaw?_eq_none_iff, hflaw]
    exact Option.some_ne_none _

theorem operation_turn (cursor : Cursor) (operation : Operation) :
    (cursor.turn operation).operation = operation := by
  cases operation <;> rfl

theorem InRange.fits (h : cursor.InRange) (field : PositionField) :
    Word.Fits (field.valueAt cursor) := by
  cases field
  exacts [h.generatedColumn, h.line, h.column]

/-- A position that a segment leads out of range is moved by one of the segment's fields. -/
theorem InRange.exists_step (h : cursor.InRange) {segment : Segment} {field : PositionField}
    (hout : ¬Word.Fits (field.valueAt (cursor.move segment))) :
    segment.fields.length ∈ field.counts ∧
      ∃ step ∈ segment.fields,
        field.valueAt (cursor.move segment) = Word.wrap (field.valueAt cursor + step) := by
  rcases field.valueAt_move cursor segment with hmoved | hsame
  · exact hmoved
  · exact absurd (hsame ▸ h.fits field) hout

/-- A minimal segment moves the generated column only. -/
theorem InRange.firstOutOfRange?_of_minimal (h : cursor.InRange) {segment : Segment}
    {field : PositionField} (hcount : segment.fields.length = 1)
    (hfield : (cursor.move segment).firstOutOfRange? = some field) :
    field = .generatedColumn := by
  have hout : ¬Word.Fits (field.valueAt (cursor.move segment)) := by
    simpa using List.find?_some hfield
  have hcounts := (h.exists_step hout).1
  rw [hcount] at hcounts
  cases field with
  | generatedColumn => rfl
  | sourceLine | sourceColumn => simp [PositionField.counts] at hcounts

theorem InRange.lawful (h : cursor.InRange) (operation : Operation) :
    (cursor.turn operation).Lawful := by
  cases operation with
  | startLine =>
    exact {
      inRange := h.startLine
      startLine := fun _ => ⟨rfl, rfl⟩
      read := fun _ _ hread => by cases hread
      fails := fun _ _ hread => by cases hread }
  | read line segment =>
    rcases cursor.turn_read_cases line segment with
      ⟨hrange, mapping, hshows, hturn⟩ | ⟨hrange, field, hfield, hturn⟩
    · rw [hturn]
      exact {
        inRange := hrange
        startLine := fun hstart => by cases hstart
        read := by
          rintro _ _ ⟨⟩ _
          exact ⟨rfl, mapping, rfl, hshows⟩
        fails := by
          rintro _ _ ⟨⟩ hout
          exact absurd hrange hout }
    · rw [hturn]
      exact {
        inRange := h
        startLine := fun hstart => by cases hstart
        read := by
          rintro _ _ ⟨⟩ hin
          exact absurd hin hrange
        fails := by
          rintro _ _ ⟨⟩ _
          exact ⟨rfl, field, hfield, rfl, fun hcount => h.firstOutOfRange?_of_minimal hcount hfield⟩ }

/-! ### Many turns -/

theorem lawful_of_mem_turns (h : cursor.InRange) (operations : List Operation) :
    ∀ turn ∈ cursor.turns operations, turn.Lawful := by
  -- every turn leaves a cursor in range to the next
  induction operations generalizing cursor with
  | nil => simp [turns]
  | cons operation rest ih =>
    have hlawful := h.lawful operation
    intro turn hturn
    rcases List.mem_cons.mp hturn with rfl | hrest
    · exact hlawful
    · exact ih hlawful.inRange turn hrest

theorem after_of_failed {operation : Operation} (h : (cursor.turn operation).failed) :
    (cursor.turn operation).after = cursor := by
  cases operation with
  | startLine => cases h
  | read line segment =>
    rcases cursor.turn_read_cases line segment with ⟨_, _, _, hturn⟩ | ⟨_, _, _, hturn⟩
    · rw [hturn] at h
      cases h
    · rw [hturn]

/-- A failure counts for nothing among the turns that are kept. -/
theorem kept_cons (cursor : Cursor) (operation : Operation) (rest : List Operation) :
    cursor.kept (operation :: rest) =
      if (cursor.turn operation).failed then cursor.kept rest
      else cursor.turn operation :: (cursor.turn operation).after.kept rest := by
  unfold kept
  rw [turns, List.filter_cons]
  by_cases hfailed : (cursor.turn operation).failed
  · simp [hfailed, after_of_failed hfailed]
  · simp [hfailed]

theorem turns_kept (cursor : Cursor) (operations : List Operation) :
    cursor.turns ((cursor.kept operations).map Turn.operation) = cursor.kept operations ∧
      cursor.ending ((cursor.kept operations).map Turn.operation) = cursor.ending operations := by
  -- a failure leaves the cursor to the next turn as it came, so the next turn is the same
  induction operations generalizing cursor with
  | nil => exact ⟨rfl, rfl⟩
  | cons operation rest ih =>
    rw [kept_cons]
    by_cases hfailed : (cursor.turn operation).failed
    · have hskip : cursor.ending (operation :: rest) = cursor.ending rest := by
        rw [ending, List.foldl_cons, after_of_failed hfailed]
        rfl
      rw [if_pos hfailed, hskip]
      exact ih cursor
    · obtain ⟨hturns, hending⟩ := ih (cursor.turn operation).after
      rw [if_neg hfailed, List.map_cons, operation_turn]
      exact ⟨congrArg (cursor.turn operation :: ·) hturns, hending⟩

theorem map_operation_turns (cursor : Cursor) (operations : List Operation) :
    (cursor.turns operations).map Turn.operation = operations := by
  induction operations generalizing cursor with
  | nil => rfl
  | cons operation rest ih =>
    rw [turns, List.map_cons, operation_turn, ih]

/-- Whatever lines a new cursor is told to begin and whatever segments it is told to read, its
turns are lawful: the positions are words at every time, and a failure names the first that
would be none. The operations that do not fail come to the same by themselves, turn by turn
and in the end. -/
theorem turns_without_failures (operations : List Operation) :
    (turns {} operations).map Turn.operation = operations ∧
      (∀ turn ∈ turns {} operations, turn.Lawful) ∧
        turns {} ((kept {} operations).map Turn.operation) = kept {} operations ∧
          ending {} ((kept {} operations).map Turn.operation) = ending {} operations :=
  ⟨map_operation_turns {} operations, lawful_of_mem_turns inRange_start operations,
    turns_kept {} operations⟩

/-- A segment that leads both the generated column and the line of the source below zero fails
with the column, and the column is still five when the next segment is read. -/
theorem turns_without_failures_below_zero :
    let origin : Cursor := ⟨5, 1, 3, 2, 4⟩
    let failing : Operation := .read 0 (.full (-9) 1 (-9) 0)
    let failure : Turn :=
      ⟨origin, failing, some (.error (.positionOutOfRange .generatedColumn (-4))), origin⟩
    let others : List Operation := [.read 0 (.named 5 1 3 2 4), .read 0 (.minimal 6)]
    let operations := others.take 1 ++ failing :: others.drop 1
    failure ∈ turns {} operations ∧ failure.Lawful ∧
      (kept {} operations).map Turn.operation = others ∧
        turns {} others = kept {} operations ∧ ending {} operations = ⟨11, 1, 3, 2, 4⟩ := by
  intro origin failing failure others operations
  obtain ⟨-, hlawful, hturns, -⟩ := turns_without_failures operations
  have hfailure : failure ∈ turns {} operations := .tail _ (.head _)
  have hothers : (kept {} operations).map Turn.operation = others := rfl
  exact ⟨hfailure, hlawful failure hfailure, hothers, hothers ▸ hturns, rfl⟩

end Cursor

end SourceMapIndex
