import Mathlib
import SourceMapIndex.Proofs.Mappings.Outcome
import SourceMapIndex.Proofs.Mappings.Tally
import SourceMapIndex.Proofs.Mappings.Tokens
import SourceMapIndex.Proofs.Vlq.Shortest

/-!
# What the tokens of a text add up to

The values of a decoder are sums of the values that its tokens spell: the generated column
over the group that is being read, the origin over all tokens that have one, the name over
all tokens that have one. This file defines those sums without the decoder, says by them
when a token is refused and which mapping it stands for otherwise, and shows that a decoder
which has kept to them so far keeps to them at every further step.

A decoder adds up signed words of sixty-four bits. For positions this makes no difference,
since they are words of thirty-two bits before every step. The source and the name wrap
around, though not before `2 ^ 32` tokens have been read.

## Main definitions

- `Mappings.sourceTotal`, `Mappings.nameTotal` — the sums that lead to a source and to a name
- `Mappings.sums` — the sums of the values of some tokens, as running values
- `Token.reached` — the sums that a token leads to behind the tokens before it
- `Token.flaw?` — why a token is refused behind the tokens before it
- `Token.mapping` — what a token says behind the tokens before it
- `Progress.Follows` — a progress agrees with the sums of the tokens behind it
-/

namespace SourceMapIndex

namespace Word

theorem next_saturate (n : Nat) : next (saturate n) = saturate (n + 1) := by
  apply UInt32.toNat_inj.mp
  simp only [next, toNat_saturate]
  omega

def Fits (value : Int) : Prop :=
  0 ≤ value ∧ value < 4294967296

instance (value : Int) : Decidable (Fits value) :=
  inferInstanceAs (Decidable (_ ∧ _))

theorem fits_toNat (w : UInt32) : Fits w.toNat := by
  have hlt := w.toNat_lt
  unfold Fits
  omega

/-- One step from a word of thirty-two bits is not wrapped. -/
theorem wrap_add_of_fits {value step : Int} (h : Fits value) (hstep : step.natAbs ≤ 2147483647) :
    wrap (value + step) = value + step := by
  unfold Fits at h
  exact wrap_of_le (by omega) (by omega)

end Word

/-- Why a running value is no position, if it is none. -/
def PositionField.flaw? (field : PositionField) (value : Int) : Option Reason :=
  if 0 ≤ value ∧ value < 4294967296 then none else some (.positionOutOfRange field value)

theorem PositionField.flaw?_of_fits {field : PositionField} {value : Int}
    (h : Word.Fits value) : field.flaw? value = none :=
  if_pos h

theorem PositionField.flaw?_of_not_fits {field : PositionField} {value : Int}
    (h : ¬Word.Fits value) : field.flaw? value = some (.positionOutOfRange field value) :=
  if_neg h

theorem PositionField.word_eq (field : PositionField) (value : Int) :
    field.word value =
      match field.flaw? value with
      | some reason => .error reason
      | none => .ok (UInt32.ofNat value.toNat) := by
  unfold PositionField.word PositionField.flaw? Word.ofInt?
  by_cases h : 0 ≤ value ∧ value < 4294967296 <;> simp [h]

namespace Cursor

/-- Why the running values are no mapping, if they are none: the generated column comes
first, then the line in the source, then the column there. -/
def flaw? (cursor : Cursor) : Option Reason :=
  (PositionField.generatedColumn.flaw? cursor.generatedColumn).or <|
    (PositionField.sourceLine.flaw? cursor.line).or <|
      PositionField.sourceColumn.flaw? cursor.column

/-- The positions among the running values are words. -/
structure InRange (cursor : Cursor) : Prop where
  generatedColumn : Word.Fits cursor.generatedColumn
  line : Word.Fits cursor.line
  column : Word.Fits cursor.column

theorem inRange_start : InRange {} := by
  constructor <;> decide

theorem inRange_source (source : Int) : InRange { source } :=
  ⟨inRange_start.generatedColumn, inRange_start.line, inRange_start.column⟩

theorem InRange.startLine {cursor : Cursor} (h : cursor.InRange) : cursor.startLine.InRange where
  generatedColumn := inRange_start.generatedColumn
  line := h.line
  column := h.column

theorem flaw?_eq_none_iff (cursor : Cursor) : cursor.flaw? = none ↔ cursor.InRange := by
  simp only [flaw?, PositionField.flaw?, Option.or_eq_none_iff, ite_eq_left_iff, reduceCtorEq,
    imp_false, Decidable.not_not]
  exact ⟨fun ⟨h, hline, hcolumn⟩ => ⟨h, hline, hcolumn⟩,
    fun h => ⟨h.generatedColumn, h.line, h.column⟩⟩

/-- The mapping at running values that have no flaw. -/
def mappingAt (cursor : Cursor) (line : UInt32) (name : Option Int) : Mapping where
  generated := ⟨line, UInt32.ofNat cursor.generatedColumn.toNat⟩
  source := cursor.source
  origin := ⟨UInt32.ofNat cursor.line.toNat, UInt32.ofNat cursor.column.toNat⟩
  name := name

theorem mapping_eq (cursor : Cursor) (line : UInt32) (name : Option Int) :
    cursor.mapping line name =
      match cursor.flaw? with
      | some reason => .error reason
      | none => .ok (cursor.mappingAt line name) := by
  simp only [mapping, PositionField.word_eq, flaw?]
  cases PositionField.generatedColumn.flaw? cursor.generatedColumn with
  | some reason => rfl
  | none =>
    cases PositionField.sourceLine.flaw? cursor.line with
    | some reason => rfl
    | none => cases PositionField.sourceColumn.flaw? cursor.column <;> rfl

/-- A segment is read as the mapping at the values it leads to, if they have no flaw. -/
theorem apply_eq (cursor : Cursor) (line : UInt32) (segment : Segment) :
    cursor.apply line segment =
      match (cursor.move segment).flaw? with
      | some reason => (.error reason, cursor)
      | none =>
        (.ok ((cursor.move segment).mappingAt line ((cursor.move segment).nameFor segment)),
          cursor.move segment) := by
  simp only [apply, mapping_eq]
  cases (cursor.move segment).flaw? <;> rfl

end Cursor

namespace Segment

theorem exists_ofFields?_iff (fields : List Int) :
    (∃ segment, ofFields? fields = some segment) ↔ fields.length ∈ [1, 4, 5] := by
  constructor
  · rintro ⟨segment, h⟩
    rw [ofFields?_eq_some_iff.mp h]
    cases segment <;> simp [Segment.fields]
  · intro h
    match fields, h with
    | [a], _ => exact ⟨_, rfl⟩
    | [a, b, c, d], _ => exact ⟨_, rfl⟩
    | [a, b, c, d, e], _ => exact ⟨_, rfl⟩
    | [], h | [_, _], h | [_, _, _], h | _ :: _ :: _ :: _ :: _ :: _ :: _, h => simp at h

theorem exists_fields_of_count {token : String} {values : List Int}
    (h : Vlq.decode token = .ok values) (hcount : values.length ∈ [1, 4, 5]) :
    ∃ segment : Segment, Vlq.decode token = .ok segment.fields := by
  obtain ⟨segment, hsegment⟩ := (exists_ofFields?_iff values).mpr hcount
  exact ⟨segment, by rw [h, ofFields?_eq_some_iff.mp hsegment]⟩

theorem parse_of_fields {token : String} {segment : Segment}
    (h : Vlq.decode token = .ok segment.fields) : parse token = .ok segment := by
  have hsegment : ofFields? segment.fields = some segment := ofFields?_eq_some_iff.mpr rfl
  simp only [parse_eq, h, hsegment]

theorem parse_of_count {token : String} {fields : List Int} (h : Vlq.decode token = .ok fields)
    (hcount : fields.length ∉ [1, 4, 5]) : parse token = .error (.fieldCount token fields.length) := by
  have hnone : ofFields? fields = none := by
    rw [Option.eq_none_iff_forall_not_mem]
    intro segment hsegment
    exact hcount ((exists_ofFields?_iff fields).mp ⟨segment, hsegment⟩)
  simp only [parse_eq, h, hnone]

end Segment

namespace Mappings

namespace Token

/-- The values that a token spells; a text that is not a row of integers spells none. -/
def values (token : Token) : List Int :=
  match Vlq.decode token.text with
  | .ok values => values
  | .error _ => []

def value (field : Nat) (token : Token) : Int :=
  token.values.getD field 0

def hasOrigin (token : Token) : Bool :=
  token.values.length == 4 || token.values.length == 5

def hasName (token : Token) : Bool :=
  token.values.length == 5

end Token

/-- What the steps of some tokens from source to source add up to. -/
def sourceTotal (tokens : List Token) : Int :=
  ((tokens.filter Token.hasOrigin).map (Token.value 1)).sum

/-- What the steps of some tokens from name to name add up to. -/
def nameTotal (tokens : List Token) : Int :=
  ((tokens.filter Token.hasName).map (Token.value 4)).sum

/-- What the values of some tokens add up to, in the group with the given number. The
positions are plain sums, the source and the name are the signed words that theirs come to. -/
def sums (group : Nat) (tokens : List Token) : Cursor where
  generatedColumn := ((tokens.filter (·.group == group)).map (Token.value 0)).sum
  source := Word.wrap (sourceTotal tokens)
  line := ((tokens.filter Token.hasOrigin).map (Token.value 2)).sum
  column := ((tokens.filter Token.hasOrigin).map (Token.value 3)).sum
  name := Word.wrap (nameTotal tokens)

theorem Token.values_of_fields {token : Token} {segment : Segment}
    (h : Vlq.decode token.text = .ok segment.fields) : token.values = segment.fields := by
  simp only [Token.values, h]

/-- What a token and the tokens before it add up to, in the token's group. -/
def Token.reached (before : List Token) (token : Token) : Cursor :=
  sums token.group (before ++ [token])

/-- A token moves the sums of its group by its segment, if the positions among them are words
before it. -/
theorem Token.reached_eq {before : List Token} {token : Token} {segment : Segment}
    (hrange : (sums token.group before).InRange)
    (h : Vlq.decode token.text = .ok segment.fields) :
    token.reached before = (sums token.group before).move segment := by
  have hvalues := Token.values_of_fields h
  -- a position is one step away from a word, so its sum is not wrapped
  have hplain : ∀ {value : Int}, Word.Fits value → ∀ step ∈ segment.fields,
      Word.wrap (value + step) = value + step := fun hfits step hstep =>
    Word.wrap_add_of_fits hfits (Vlq.natAbs_le_of_decode h step hstep)
  cases segment with
  | minimal generatedColumn =>
    rw [Cursor.move, hplain hrange.generatedColumn _ (by simp [Segment.fields])]
    simp [reached, sums, sourceTotal, nameTotal, hasOrigin, hasName, value, List.filter_append,
      hvalues, Segment.fields]
  | full generatedColumn source line column | named generatedColumn source line column =>
    rw [Cursor.move, hplain hrange.generatedColumn _ (by simp [Segment.fields]),
      hplain hrange.line _ (by simp [Segment.fields]),
      hplain hrange.column _ (by simp [Segment.fields])]
    simp [reached, sums, sourceTotal, nameTotal, hasOrigin, hasName, value, List.filter_append,
      hvalues, Segment.fields]

/-- In a group that has no tokens yet only the generated column differs from what it was in
another group. -/
theorem sums_startLine {before : List Token} {group : Nat} (other : Nat)
    (h : ∀ token ∈ before, token.group < group) :
    sums group before = (sums other before).startLine := by
  -- the generated column is a sum over no tokens, the other sums do not look at groups
  have hnone : before.filter (·.group == group) = [] := by
    rw [List.filter_eq_nil_iff]
    intro token htoken
    have := h token htoken
    simp only [beq_iff_eq]
    omega
  simp [sums, Cursor.startLine, hnone]

/-! ### Sums that are too small to wrap -/

theorem Token.natAbs_value_le (field : Nat) (token : Token) :
    (token.value field).natAbs ≤ 2147483647 := by
  unfold value
  rw [List.getD_eq_getElem?_getD]
  cases hfield : token.values[field]? with
  | none => decide
  | some found =>
    have hmem : found ∈ token.values := List.mem_of_getElem? hfield
    unfold values at hmem
    cases hdecode : Vlq.decode token.text with
    | error fault => simp [hdecode] at hmem
    | ok fields => exact Vlq.natAbs_le_of_decode hdecode found (by simpa [hdecode] using hmem)

theorem natAbs_sum_value_le (field : Nat) (tokens : List Token) :
    ((tokens.map (Token.value field)).sum).natAbs ≤ tokens.length * 2147483647 := by
  induction tokens with
  | nil => exact Nat.le_refl 0
  | cons token rest ih =>
    rw [List.map_cons, List.sum_cons, List.length_cons, Nat.add_one_mul, Nat.add_comm]
    exact (Int.natAbs_add_le _ _).trans (Nat.add_le_add (token.natAbs_value_le field) ih)

/-- The steps of `2 ^ 32` tokens do not lead out of the signed words. -/
theorem wrap_sum_value {tokens : List Token} (hlength : tokens.length ≤ 4294967296)
    (field : Nat) (p : Token → Bool) :
    Word.wrap ((tokens.filter p).map (Token.value field)).sum =
      ((tokens.filter p).map (Token.value field)).sum := by
  have hsum := natAbs_sum_value_le field (tokens.filter p)
  have hfew : (tokens.filter p).length ≤ 4294967296 :=
    (List.length_filter_le p tokens).trans hlength
  have hmost : (tokens.filter p).length * 2147483647 ≤ 4294967296 * 2147483647 :=
    Nat.mul_le_mul_right _ hfew
  exact Word.wrap_of_le (by omega) (by omega)

theorem wrap_sourceTotal {tokens : List Token} (hlength : tokens.length ≤ 4294967296) :
    Word.wrap (sourceTotal tokens) = sourceTotal tokens :=
  wrap_sum_value hlength 1 Token.hasOrigin

theorem wrap_nameTotal {tokens : List Token} (hlength : tokens.length ≤ 4294967296) :
    Word.wrap (nameTotal tokens) = nameTotal tokens :=
  wrap_sum_value hlength 4 Token.hasName

namespace Token

/-- Why a token is refused behind the tokens before it, if it is: the first of its checks
that fails. -/
def flaw? (before : List Token) (token : Token) : Option Reason :=
  if token.text = "" then some .emptySegment
  else
    match Vlq.decode token.text with
    | .error fault => some (.malformedSegment token.text fault)
    | .ok values =>
      if values.length ∈ [1, 4, 5] then (token.reached before).flaw?
      else some (.fieldCount token.text values.length)

/-- What a token says behind the tokens before it. -/
def mapping (before : List Token) (token : Token) : Mapping :=
  (token.reached before).mappingAt (Word.saturate token.group)
    (if token.hasName then some (token.reached before).name else none)

theorem mapping_eq {before : List Token} {token : Token} {segment : Segment}
    (hrange : (sums token.group before).InRange)
    (h : Vlq.decode token.text = .ok segment.fields) :
    token.mapping before =
      ((sums token.group before).move segment).mappingAt (Word.saturate token.group)
        (((sums token.group before).move segment).nameFor segment) := by
  have hvalues := values_of_fields h
  simp only [mapping, reached_eq hrange h]
  cases segment <;> simp [hasName, hvalues, Segment.fields, Cursor.nameFor]

/-- A token without a flaw leads to positions that are words. -/
theorem inRange_of_flaw {before : List Token} {token : Token} (h : token.flaw? before = none) :
    (token.reached before).InRange := by
  rw [← Cursor.flaw?_eq_none_iff]
  unfold flaw? at h
  split at h
  · cases h
  · split at h
    · cases h
    · split at h
      · exact h
      · cases h

def failure (token : Token) (reason : Reason) : Failure :=
  ⟨reason, Word.saturate token.group, token.segment⟩

end Token

end Mappings

namespace Decoder

namespace Progress

open Mappings (Token sums sums_startLine)

def refuse (progress : Progress) (token : Token) : Progress :=
  if token.text = "" then
    { progress with
      emptyTokens := progress.emptyTokens ++ [(Word.saturate token.group, token.segment)] }
  else progress

def accept (progress : Progress) (before : List Token) (token : Token) : Progress :=
  { progress with
    cursor := token.reached before
    lastSegment := (Word.saturate token.group, token.segment) }

/-- A progress agrees with the text behind it, in which `begun` groups have begun and the
tokens `before` were read. -/
structure Follows (begun : Nat) (before : List Token) (progress : Progress) : Prop where
  /-- The running values are the sums in the group that began last. -/
  cursor : progress.cursor = sums (begun - 1) before
  /-- The positions among them are words. -/
  inRange : progress.cursor.InRange
  /-- The groups were counted as far as words go. -/
  lineCount : progress.lineCount = Word.saturate begun
  /-- The tokens belong to groups that have begun. -/
  groups : ∀ token ∈ before, token.group < begun

theorem follows_start : Follows 0 [] {} :=
  ⟨rfl, Cursor.inRange_start, rfl, by simp⟩

variable {progress : Progress} {begun : Nat} {before : List Token} {token : Token}

/-- The beginning of a group keeps the agreement. -/
theorem Follows.startLine (h : Follows begun before progress) :
    Follows (begun + 1) before (progress.startLine (Word.saturate begun)) where
  cursor := by
    change progress.cursor.startLine = sums begun before
    rw [h.cursor]
    exact (sums_startLine (begun - 1) h.groups).symm
  inRange := h.inRange.startLine
  lineCount := Word.next_saturate begun
  groups := fun token htoken => Nat.lt_succ_of_lt (h.groups token htoken)

/-- A token that is read keeps the agreement. -/
theorem Follows.accept (h : Follows (token.group + 1) before progress)
    (hflaw : token.flaw? before = none) :
    Follows (token.group + 1) (before ++ [token]) (progress.accept before token) where
  cursor := rfl
  inRange := Token.inRange_of_flaw hflaw
  lineCount := h.lineCount
  groups := by
    intro other hother
    rcases List.mem_append.mp hother with hbefore | hlast
    · exact h.groups other hbefore
    · rw [List.mem_singleton.mp hlast]
      exact Nat.lt_succ_self token.group

/-- A decoder in agreement with the text behind it refuses a token for the token's flaw, and
reads it as the token's mapping if it has none. -/
theorem Follows.read_eq (h : Follows (token.group + 1) before progress) :
    progress.read (Word.saturate token.group) token.segment token.text =
      match token.flaw? before with
      | some reason => (.error (token.failure reason), progress.refuse token)
      | none => (.ok (token.mapping before), progress.accept before token) := by
  have hcursor : progress.cursor = sums token.group before := h.cursor
  have hrange : (sums token.group before).InRange := hcursor ▸ h.inRange
  by_cases hempty : token.text = ""
  · simp [read, Token.flaw?, refuse, hempty, Token.failure]
  · have hisEmpty : token.text.isEmpty = false := by simpa using hempty
    simp only [read, Token.flaw?, refuse, hempty, hisEmpty, Bool.false_eq_true, if_false]
    cases hdecode : Vlq.decode token.text with
    | error fault => simp only [Segment.parse_eq, hdecode, Token.failure]
    | ok values =>
      by_cases hcount : values.length ∈ [1, 4, 5]
      · obtain ⟨segment, hfields⟩ := Segment.exists_fields_of_count hdecode hcount
        simp only [Segment.parse_of_fields hfields, Cursor.apply_eq, hcount, if_true,
          Token.reached_eq hrange hfields, Token.mapping_eq hrange hfields, ← hcursor]
        cases (progress.cursor.move segment).flaw? with
        | some reason => rfl
        | none => simp only [Progress.accept, Token.reached_eq hrange hfields, hcursor]
      · simp only [Segment.parse_of_count hdecode hcount, hcount, if_false, Token.failure]

end Progress

end Decoder

end SourceMapIndex
