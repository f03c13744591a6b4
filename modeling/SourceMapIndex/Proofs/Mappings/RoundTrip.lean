import SourceMapIndex.Mappings.Encoding
import SourceMapIndex.Proofs.Mappings.Reading
import SourceMapIndex.Proofs.Text.Parts
import SourceMapIndex.Proofs.Vlq.RoundTrip

/-!
# Reading a written mapping string

A list of generated lines is written as differences and read back as the records themselves,
whichever of the plain ones are written short. The writer and the decoder go through the
same running values: a record's segment moves the values before it to the values after it.

## Main definitions

- `Mappings.differences` — all differences that the writing of some lines goes through
- `Mappings.mappingsOf` — the mappings of some lines, with their line numbers

## Main results

- `Record.move_segment` — the segment of a record leads to the record
- `Mappings.decode_encode` — what is written is read back
-/

namespace SourceMapIndex

namespace Mappings

namespace Record

/-- The differences of a record from the running values before it; the name has one if the
record has a name. -/
def differences (record : Record) (before : Cursor) : List Int :=
  [record.generatedColumn.toNat - before.generatedColumn, record.source.toInt - before.source,
    record.origin.line.toNat - before.line, record.origin.column.toNat - before.column] ++
      (record.name.map (·.toInt - before.name)).toList

/-- The running values after some records of one line. -/
def afterAll (before : Cursor) (line : List Record) : Cursor :=
  line.foldl (fun cursor record => record.after cursor) before

/-- The difference from a running value to a value of a record leads to that value. -/
theorem wrap_add_sub_toNat (value : Int) (w : UInt32) :
    Word.wrap (value + (w.toNat - value)) = w.toNat := by
  have hlt := w.toNat_lt
  exact Word.wrap_add_sub (by omega) (by omega)

theorem wrap_add_sub_toInt (value : Int) (w : Int64) :
    Word.wrap (value + (w.toInt - value)) = w.toInt := by
  have hle := w.le_toInt
  have hlt := w.toInt_lt
  exact Word.wrap_add_sub (by omega) (by omega)

theorem move_segment (record : Record) (before : Cursor) :
    before.move (record.segment before) = record.after before := by
  unfold segment
  cases hname : record.name with
  | some name =>
    simp only [Cursor.move, after, hname, Option.map_some, Option.getD_some, wrap_add_sub_toNat,
      wrap_add_sub_toInt]
  | none =>
    simp only
    split
    · next hshort =>
      simp only [isPlain, Bool.and_eq_true, beq_iff_eq] at hshort
      obtain ⟨-, ⟨⟨-, hsource⟩, hline⟩, hcolumn⟩ := hshort
      simp only [Cursor.move, after, hname, Option.map_none, Option.getD_none, wrap_add_sub_toNat,
        hsource, hline, hcolumn]
    · simp only [Cursor.move, after, hname, Option.map_none, Option.getD_none, wrap_add_sub_toNat,
        wrap_add_sub_toInt]

theorem inRange_after (record : Record) (before : Cursor) : (record.after before).InRange where
  generatedColumn := Word.fits_toNat record.generatedColumn
  line := Word.fits_toNat record.origin.line
  column := Word.fits_toNat record.origin.column

theorem mappingAt_after (record : Record) (before : Cursor) (line : UInt32) :
    (record.after before).mappingAt line
      ((record.after before).nameFor (record.segment before)) = record.mapping line := by
  have hname : (record.after before).nameFor (record.segment before) =
      record.name.map Int64.toInt := by
    unfold segment
    cases hname : record.name with
    | some name => simp [Cursor.nameFor, after, hname]
    | none =>
      simp only
      split <;> rfl
  rw [hname]
  simp [Cursor.mappingAt, after, mapping]

theorem fields_subset_differences (record : Record) (before : Cursor) :
    ∀ value ∈ (record.segment before).fields, value ∈ record.differences before := by
  intro value hvalue
  unfold segment at hvalue
  cases hname : record.name with
  | some name =>
    simp only [hname, Segment.fields, after] at hvalue
    simpa [differences, hname] using hvalue
  | none =>
    simp only [hname] at hvalue
    split at hvalue
    · simp only [Segment.fields, after, List.mem_singleton] at hvalue
      simp [differences, hvalue]
    · simp only [Segment.fields, after] at hvalue
      simpa [differences, hname] using hvalue

theorem decode_text {record : Record} {before : Cursor}
    (h : ∀ value ∈ record.differences before, value.natAbs ≤ 2147483647) :
    Vlq.decode (record.segment before).text = .ok (record.segment before).fields :=
  Vlq.decode_encodeAll fun value hvalue =>
    h value (record.fields_subset_differences before value hvalue)

end Record

/-- Segments are written in digits of the base64 alphabet. -/
theorem not_mem_text {segment : Segment} {c : Char} (hc : Base64.value? c = none) :
    c ∉ segment.text.toList := by
  intro h
  simp only [Segment.text, String.toList_ofList, Vlq.encodeAll, List.mem_flatMap] at h
  obtain ⟨number, _, hmem⟩ := h
  obtain ⟨value, hvalue⟩ := Vlq.exists_value?_of_mem_digits hmem
  rw [hc] at hvalue
  simp at hvalue

theorem text_ne_empty (segment : Segment) : segment.text ≠ "" := by
  have hfirst : ∃ first rest, segment.fields = first :: rest := by
    cases segment <;> exact ⟨_, _, rfl⟩
  obtain ⟨first, rest, hfields⟩ := hfirst
  intro h
  have hnil := congrArg String.toList h
  simp only [Segment.text, hfields, String.toList_ofList, Vlq.encodeAll, List.flatMap_cons,
    String.toList_empty, List.append_eq_nil_iff] at hnil
  exact Vlq.digits_ne_nil (Vlq.number first) hnil.1

/-- A decoder at the values before a record reads the text of its segment as the record. -/
theorem read_text {record : Record} {progress : Decoder.Progress} (line : UInt32)
    (segment : Nat)
    (h : ∀ value ∈ record.differences progress.cursor, value.natAbs ≤ 2147483647) :
    progress.read line segment (record.segment progress.cursor).text =
      (.ok (record.mapping line),
        { progress with
          cursor := record.after progress.cursor
          lastSegment := (line, segment) }) := by
  have hempty : (record.segment progress.cursor).text.isEmpty = false := by
    simpa using text_ne_empty (record.segment progress.cursor)
  have hflaw := (Cursor.flaw?_eq_none_iff _).mpr (record.inRange_after progress.cursor)
  have hparse := Segment.parse_of_fields (Record.decode_text h)
  simp only [Decoder.Progress.read, hempty, Bool.false_eq_true, if_false, hparse,
    Cursor.apply_eq, record.move_segment, hflaw, record.mappingAt_after]

def lineDifferences (before : Cursor) : List Record → List Int
  | [] => []
  | record :: rest => record.differences before ++ lineDifferences (record.after before) rest

/-- The differences of the records of some lines, which start with the given values. -/
def differences (before : Cursor) : List (List Record) → List Int
  | [] => []
  | line :: rest =>
    lineDifferences before.startLine line ++
      differences (Record.afterAll before.startLine line) rest

/-- The mappings of lines that are counted from `first`. -/
def mappingsFrom (first : Nat) (lines : List (List Record)) : List Mapping :=
  (lines.zipIdx first).flatMap fun (line, n) => line.map (·.mapping (UInt32.ofNat n))

def mappingsOf (lines : List (List Record)) : List Mapping :=
  mappingsFrom 0 lines

theorem encodeLine_snd (before : Cursor) (line : List Record) :
    (encodeLine before line).2 = Record.afterAll before line := by
  induction line generalizing before with
  | nil => rfl
  | cons record rest ih => exact ih (record.after before)

theorem encodeLines_cons (before : Cursor) (line : List Record) (rest : List (List Record)) :
    encodeLines before (line :: rest) =
      Text.join ',' (encodeLine before.startLine line).1 ::
        encodeLines (Record.afterAll before.startLine line) rest := by
  rw [← encodeLine_snd]
  rfl

theorem length_encodeLines (before : Cursor) (lines : List (List Record)) :
    (encodeLines before lines).length = lines.length := by
  induction lines generalizing before with
  | nil => rfl
  | cons line rest ih =>
    rw [encodeLines_cons, List.length_cons, List.length_cons, ih]

theorem exists_segment_of_mem_encodeLine {before : Cursor} {line : List Record}
    {token : String} (h : token ∈ (encodeLine before line).1) :
    ∃ segment : Segment, token = segment.text := by
  induction line generalizing before with
  | nil => simp [encodeLine] at h
  | cons record rest ih =>
    rcases List.mem_cons.mp h with hfirst | hrest
    · exact ⟨_, hfirst⟩
    · exact ih hrest

theorem parts_join_encodeLine (before : Cursor) (line : List Record) :
    Text.parts ',' (Text.join ',' (encodeLine before line).1) = (encodeLine before line).1 := by
  apply Text.parts_join
  · intro token htoken
    obtain ⟨segment, rfl⟩ := exists_segment_of_mem_encodeLine htoken
    exact not_mem_text (by decide)
  · intro hblank
    obtain ⟨segment, hsegment⟩ := exists_segment_of_mem_encodeLine
      (hblank ▸ List.mem_singleton.mpr rfl : "" ∈ (encodeLine before line).1)
    exact text_ne_empty segment hsegment.symm

theorem not_mem_encodeLines {before : Cursor} {lines : List (List Record)} {text : String}
    (h : text ∈ encodeLines before lines) : ';' ∉ text.toList := by
  induction lines generalizing before with
  | nil => simp [encodeLines] at h
  | cons line rest ih =>
    rw [encodeLines_cons] at h
    rcases List.mem_cons.mp h with hfirst | hrest
    · rw [hfirst]
      apply Text.not_mem_join (by decide)
      intro token htoken
      obtain ⟨segment, rfl⟩ := exists_segment_of_mem_encodeLine htoken
      exact not_mem_text (by decide)
    · exact ih hrest

/-- Only lines without records have a blank text as their only text. -/
theorem mappingsOf_of_blank {lines : List (List Record)} (h : encodeLines {} lines = [""]) :
    mappingsOf lines = [] := by
  match lines with
  | [] => rfl
  | [[]] => rfl
  | [record :: rest] =>
    simp only [encodeLines_cons, List.cons.injEq] at h
    have htokens := Text.join_eq_empty_iff.mp h.1
    simp only [encodeLine, List.cons.injEq, reduceCtorEq, false_or] at htokens
    exact absurd htokens.1 (text_ne_empty _)
  | _ :: _ :: rest => simp [encodeLines_cons] at h

/-- The steps of the tokens of a line, which are counted from `first`. -/
def stepsOfLine (number : UInt32) (first : Nat) (tokens : List String) : List Step :=
  (tokens.zipIdx first).map fun (token, i) => .token number i token

/-- A decoder at the values before a line reads its tokens as the records of the line, and
then goes on at the values after it. -/
theorem outcome_encodeLine {line : List Record} {progress : Decoder.Progress}
    (h : ∀ value ∈ lineDifferences progress.cursor line, value.natAbs ≤ 2147483647)
    (number : UInt32) (first : Nat) :
    ∃ after : Decoder.Progress, after.cursor = Record.afterAll progress.cursor line ∧
      ∀ rest, Decoder.outcome
          (stepsOfLine number first (encodeLine progress.cursor line).1 ++ rest) progress =
        (Decoder.outcome rest after).prepend (line.map (·.mapping number)) := by
  induction line generalizing progress first with
  | nil => exact ⟨progress, rfl, fun rest => rfl⟩
  | cons record others ih =>
    have hread := read_text number first fun value hvalue =>
      h value (List.mem_append_left _ hvalue)
    let next : Decoder.Progress :=
      { progress with cursor := record.after progress.cursor, lastSegment := (number, first) }
    obtain ⟨after, hafter, houtcome⟩ := @ih next
      (fun value hvalue => h value (List.mem_append_right _ hvalue)) (first + 1)
    refine ⟨after, hafter, fun rest => ?_⟩
    -- the first step yields the record, the others are those of the rest of the line
    have hfirst : Decoder.outcome (stepsOfLine number first
          (encodeLine progress.cursor (record :: others)).1 ++ rest) progress =
        (Decoder.outcome (stepsOfLine number (first + 1) (encodeLine next.cursor others).1 ++ rest)
          next).cons (record.mapping number) := by
      simp only [stepsOfLine, encodeLine, List.zipIdx_cons, List.map_cons, List.cons_append,
        Decoder.outcome, hread]
      rfl
    rw [hfirst, houtcome rest]
    rfl

/-- A decoder at the values before some lines reads their texts as the records of the lines. -/
theorem outcome_encodeLines {lines : List (List Record)} {progress : Decoder.Progress}
    {first : Nat} (hlength : first + lines.length ≤ 4294967296)
    (h : ∀ value ∈ differences progress.cursor lines, value.natAbs ≤ 2147483647) :
    let outcome := Decoder.outcome
      ((placesFrom first (encodeLines progress.cursor lines)).map Place.step) progress
    outcome.state = mappingsFrom first lines ∧ outcome.failure = none := by
  induction lines generalizing progress first with
  | nil => exact ⟨rfl, rfl⟩
  | cons line rest ih =>
    rw [List.length_cons] at hlength
    have hnumber : Word.saturate first = UInt32.ofNat first := by
      have hfirst : first < UInt32.size := by
        simp only [UInt32.size]
        omega
      simp only [Word.saturate, hfirst, if_true]
    obtain ⟨after, hafter, houtcome⟩ :=
      @outcome_encodeLine line (progress.startLine (Word.saturate first))
        (fun value hvalue => h value (List.mem_append_left _ hvalue)) (Word.saturate first) 0
    have hcursor : after.cursor = Record.afterAll progress.cursor.startLine line := hafter
    have hsteps : (placesFrom first (encodeLines progress.cursor (line :: rest))).map Place.step =
        .line (Word.saturate first) ::
          (stepsOfLine (Word.saturate first) 0 (encodeLine progress.cursor.startLine line).1 ++
            (placesFrom (first + 1) (encodeLines after.cursor rest)).map Place.step) := by
      rw [encodeLines_cons, placesFrom_cons, tokensOf, parts_join_encodeLine, hcursor]
      simp [stepsOfLine, Place.step, Function.comp_def]
    -- the next line starts at the values after this one, with the next number
    have hrest := @ih after (first + 1) (by omega) fun value hvalue =>
      h value (List.mem_append_right _ (hcursor ▸ hvalue))
    rw [hsteps]
    simp only [Decoder.outcome]
    rw [show encodeLine progress.cursor.startLine line =
      encodeLine (progress.startLine (Word.saturate first)).cursor line from rfl, houtcome]
    refine ⟨?_, hrest.2⟩
    simp only [Decoder.Outcome.prepend, hrest.1, mappingsFrom, List.zipIdx_cons,
      List.flatMap_cons, hnumber]

/-- The groups of a written mapping string are the texts of its lines, unless it is blank. -/
theorem parts_encode (lines : List (List Record)) :
    Text.parts ';' (encode lines) = if encode lines = "" then [] else encodeLines {} lines := by
  by_cases hblank : encode lines = ""
  · rw [if_pos hblank, hblank]
    rfl
  · rw [if_neg hblank]
    apply Text.parts_join
    · exact fun text htext => not_mem_encodeLines htext
    · exact fun h => hblank (Text.join_eq_empty_iff.mpr (Or.inr h))

theorem outcome_encode {lines : List (List Record)} (hlength : lines.length ≤ 4294967296)
    (hsmall : ∀ value ∈ differences {} lines, value.natAbs ≤ 2147483647) :
    (decode (encode lines)).state = mappingsOf lines ∧ (decode (encode lines)).failure = none := by
  rw [Decoder.decode_eq_outcome, steps_eq_places, places, parts_encode]
  by_cases hblank : encode lines = ""
  · -- blank text: no lines, or one line without records
    rw [if_pos hblank]
    refine ⟨?_, rfl⟩
    rcases Text.join_eq_empty_iff.mp hblank with hnil | hsingle
    · have hlines : lines = [] := by
        rw [← List.length_eq_zero_iff, ← length_encodeLines {} lines, hnil]
        rfl
      rw [hlines]
      rfl
    · exact (mappingsOf_of_blank hsingle).symm
  · rw [if_neg hblank]
    exact @outcome_encodeLines lines {} 0 (by omega) hsmall

/-- A mapping string that is written for at most `2 ^ 32` lines, with differences of less than
thirty-two bits, is read as the records of the lines in their order and with their line
numbers, whichever of them are written short. The lines are counted as far as words go, except
that a blank text has none. -/
theorem decode_encode {lines : List (List Record)} (hlength : lines.length ≤ 4294967296)
    (hsmall : ∀ value ∈ differences {} lines, value.natAbs ≤ 2147483647) :
    (decode (encode lines)).state = mappingsOf lines ∧ (decode (encode lines)).failure = none ∧
      (decode (encode lines)).progress.lineCount.toNat =
        if encode lines = "" then 0 else min lines.length 4294967295 := by
  obtain ⟨hstate, hfailure⟩ := outcome_encode hlength hsmall
  refine ⟨hstate, hfailure, ?_⟩
  obtain ⟨_, hread, hcount⟩ := decode_eq_readAll (encode lines)
  rw [hcount (hread.symm.trans hfailure), Word.toNat_saturate, parts_encode]
  split
  · rfl
  · rw [length_encodeLines]

/-- Three lines of which the second is blank; the last record goes back to an earlier column,
takes the short form and passes over the name before it. -/
theorem decode_encode_short_record :
    (3 ≤ 4294967296 ∧
      ∀ value ∈ differences {} [[⟨4, 0, ⟨1, 2⟩, none, false⟩], [],
        [⟨9, 0, ⟨0, 2⟩, some 3, false⟩, ⟨8, 0, ⟨0, 2⟩, none, true⟩]],
        value.natAbs ≤ 2147483647) ∧
    (decode (encode [[⟨4, 0, ⟨1, 2⟩, none, false⟩], [],
        [⟨9, 0, ⟨0, 2⟩, some 3, false⟩, ⟨8, 0, ⟨0, 2⟩, none, true⟩]])).state =
      [⟨⟨0, 4⟩, 0, ⟨1, 2⟩, none⟩, ⟨⟨2, 9⟩, 0, ⟨0, 2⟩, some 3⟩, ⟨⟨2, 8⟩, 0, ⟨0, 2⟩, none⟩] :=
  ⟨⟨by decide, by decide⟩, (decode_encode (by decide) (by decide)).1⟩

end Mappings

end SourceMapIndex
