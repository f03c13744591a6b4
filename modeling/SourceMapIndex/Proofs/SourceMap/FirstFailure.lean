import SourceMapIndex.Proofs.Mappings.Deltas
import SourceMapIndex.Proofs.SourceMap.Build
import SourceMapIndex.Proofs.Tables

/-!
# All or nothing

A build comes to an index if every token of the mapping string is accepted behind the tokens
before it. Otherwise it fails at the first token that is not, for the first of eight checks
that this token does not pass. The decoder makes six of them and the tables two; what is
said here does not tell them apart.

## Main definitions

- `Tables.Accepts` — a token passes all checks
- `Tables.Refuses` — the check that a token fails, the checks before it being passed

## Main results

- `Tables.judge_cases` — a token is accepted or refused, as it is judged
- `SourceMap.index_eq_first_refusal` — when a build fails, and how
-/

namespace SourceMapIndex

open Mappings (Token readAll tokens)

/-- A text that spells the fields of a segment. -/
def Segment.Spelled (text : String) : Prop :=
  text ≠ "" ∧ ∃ values, Vlq.decode text = .ok values ∧ values.length ∈ [1, 4, 5]

namespace Tables

/-- A token is accepted behind the tokens before it: it spells a segment, which leads every
position to a word, the source into its table, and the name too if the segment has one. -/
structure Accepts (tables : Tables) (before : List Token) (token : Token) : Prop where
  segment : Segment.Spelled token.text
  positions : (token.reached before).InRange
  source : Covers tables.sources (token.reached before).source
  name : token.hasName → Covers tables.names (token.reached before).name

/-- The first check that a token fails behind the tokens before it. The checks stand in the
order in which they are made, and each supposes those before it. -/
inductive Refuses (tables : Tables) (before : List Token) (token : Token) : Reason → Prop where
  | emptySegment (h : token.text = "") : Refuses tables before token .emptySegment
  | malformedSegment {fault : Vlq.Fault} (htext : token.text ≠ "")
      (h : Vlq.decode token.text = .error fault) :
      Refuses tables before token (.malformedSegment token.text fault)
  | fieldCount {values : List Int} (htext : token.text ≠ "")
      (hvalues : Vlq.decode token.text = .ok values) (h : values.length ∉ [1, 4, 5]) :
      Refuses tables before token (.fieldCount token.text values.length)
  | generatedColumn (hsegment : Segment.Spelled token.text)
      (h : ¬Word.Fits (token.reached before).generatedColumn) :
      Refuses tables before token
        (.positionOutOfRange .generatedColumn (token.reached before).generatedColumn)
  | sourceLine (hsegment : Segment.Spelled token.text)
      (hgenerated : Word.Fits (token.reached before).generatedColumn)
      (h : ¬Word.Fits (token.reached before).line) :
      Refuses tables before token (.positionOutOfRange .sourceLine (token.reached before).line)
  | sourceColumn (hsegment : Segment.Spelled token.text)
      (hgenerated : Word.Fits (token.reached before).generatedColumn)
      (hline : Word.Fits (token.reached before).line)
      (h : ¬Word.Fits (token.reached before).column) :
      Refuses tables before token (.positionOutOfRange .sourceColumn (token.reached before).column)
  | source (hsegment : Segment.Spelled token.text) (hpositions : (token.reached before).InRange)
      (h : ¬Covers tables.sources (token.reached before).source) :
      Refuses tables before token
        (.sourceOutOfRange (token.reached before).source tables.sources.size)
  | name (hsegment : Segment.Spelled token.text) (hpositions : (token.reached before).InRange)
      (hsource : Covers tables.sources (token.reached before).source) (hname : token.hasName)
      (h : ¬Covers tables.names (token.reached before).name) :
      Refuses tables before token
        (.nameOutOfRange (token.reached before).name tables.names.size)

variable {tables : Tables} {before : List Token} {token : Token}

theorem Accepts.not_refuses (h : tables.Accepts before token) (reason : Reason) :
    ¬tables.Refuses before token reason := by
  obtain ⟨htext, values, hvalues, hcount⟩ := h.segment
  intro hrefuses
  cases hrefuses with
  | emptySegment hempty => exact htext hempty
  | malformedSegment _ hfault => cases hvalues.symm.trans hfault
  | fieldCount _ hothers hother =>
    cases hvalues.symm.trans hothers
    exact hother hcount
  | generatedColumn _ hfits => exact hfits h.positions.generatedColumn
  | sourceLine _ _ hfits => exact hfits h.positions.line
  | sourceColumn _ _ _ hfits => exact hfits h.positions.column
  | source _ _ hcovers => exact hcovers h.source
  | name _ _ _ hname hcovers => exact hcovers (h.name hname)

/-- The positions are checked one by one, and the flaw is that of the first that does not fit. -/
theorem refuses_of_position_flaw {reason : Reason} (hsegment : Segment.Spelled token.text)
    (h : (token.reached before).flaw? = some reason) : tables.Refuses before token reason := by
  unfold Cursor.flaw? at h
  by_cases hgenerated : Word.Fits (token.reached before).generatedColumn
  · rw [PositionField.flaw?_of_fits hgenerated, Option.none_or] at h
    by_cases hline : Word.Fits (token.reached before).line
    · rw [PositionField.flaw?_of_fits hline, Option.none_or] at h
      by_cases hcolumn : Word.Fits (token.reached before).column
      · rw [PositionField.flaw?_of_fits hcolumn] at h
        cases h
      · rw [PositionField.flaw?_of_not_fits hcolumn] at h
        cases h
        exact .sourceColumn hsegment hgenerated hline hcolumn
    · rw [PositionField.flaw?_of_not_fits hline] at h
      cases h
      exact .sourceLine hsegment hgenerated hline
  · rw [PositionField.flaw?_of_not_fits hgenerated] at h
    cases h
    exact .generatedColumn hsegment hgenerated

theorem refuses_of_flaw {reason : Reason} (h : token.flaw? before = some reason) :
    tables.Refuses before token reason := by
  unfold Token.flaw? at h
  by_cases hempty : token.text = ""
  · rw [if_pos hempty] at h
    cases h
    exact .emptySegment hempty
  · rw [if_neg hempty] at h
    cases hdecode : Vlq.decode token.text with
    | error fault =>
      rw [hdecode] at h
      cases h
      exact .malformedSegment hempty hdecode
    | ok values =>
      rw [hdecode] at h
      by_cases hcount : values.length ∈ [1, 4, 5]
      · simp only [if_pos hcount] at h
        exact refuses_of_position_flaw ⟨hempty, values, hdecode, hcount⟩ h
      · simp only [if_neg hcount] at h
        cases h
        exact .fieldCount hempty hdecode hcount

theorem spelled_of_not_fails (h : ¬token.Fails before) : Segment.Spelled token.text := by
  refine ⟨fun hempty => h (Or.inl hempty), ?_⟩
  cases hdecode : Vlq.decode token.text with
  | error fault => exact absurd (Or.inr (Or.inl ⟨fault, hdecode⟩)) h
  | ok values =>
    by_cases hcount : values.length ∈ [1, 4, 5]
    · exact ⟨values, rfl, hcount⟩
    · exact absurd (Or.inr (Or.inr (Or.inl ⟨values, hdecode, hcount⟩))) h

/-- The flaw of a mapping is the first of the last two checks that its token fails. -/
theorem refuses_of_mapping_flaw {reason : Reason} (hsegment : Segment.Spelled token.text)
    (hpositions : (token.reached before).InRange)
    (h : tables.flaw? (token.mapping before) = some reason) :
    tables.Refuses before token reason := by
  change (tables.sourceFlaw? (token.reached before).source).or _ = _ at h
  unfold sourceFlaw? at h
  by_cases hsource : Covers tables.sources (token.reached before).source
  · rw [if_pos hsource, Option.none_or] at h
    by_cases hname : token.hasName
    · have hflaw : (token.mapping before).name = some (token.reached before).name := if_pos hname
      rw [hflaw, nameFlaw?] at h
      by_cases hcovers : Covers tables.names (token.reached before).name
      · rw [if_pos hcovers] at h
        cases h
      · rw [if_neg hcovers] at h
        cases h
        exact .name hsegment hpositions hsource hname hcovers
    · have hflaw : (token.mapping before).name = none := if_neg hname
      rw [hflaw] at h
      cases h
  · rw [if_neg hsource] at h
    cases h
    exact .source hsegment hpositions hsource

theorem accepts_of_mapping (hsegment : Segment.Spelled token.text)
    (hpositions : (token.reached before).InRange)
    (h : tables.flaw? (token.mapping before) = none) : tables.Accepts before token := by
  obtain ⟨hsource, hname⟩ := (tables.flaw?_eq_none_iff _).mp h
  refine ⟨hsegment, hpositions, hsource, fun htoken => hname _ ?_⟩
  exact if_pos htoken

/-- The judgement of a token is that of its checks. -/
theorem judge_cases (tables : Tables) (before : List Token) (token : Token) :
    (tables.Accepts before token ∧ ∃ resolved, tables.judge before token = .ok resolved) ∨
      ∃ reason, tables.Refuses before token reason ∧ tables.judge before token = .error reason := by
  cases hflaw : token.flaw? before with
  | some reason =>
    exact Or.inr ⟨reason, refuses_of_flaw hflaw, Decoder.judgeBy_of_flaw hflaw⟩
  | none =>
    have hjudge : tables.judge before token = tables.resolve (token.mapping before) :=
      Decoder.judgeBy_of_flaw_eq_none hflaw
    have hfails := Token.flaw?_eq_none_iff.mp hflaw
    have hsegment := spelled_of_not_fails hfails
    have hpositions := Token.inRange_of_not_fails hfails
    rw [hjudge]
    rcases tables.resolve_cases (token.mapping before) with
      ⟨reason, hmapping, hresolve⟩ | ⟨hmapping, resolved, hresolve, _⟩
    · exact Or.inr ⟨reason, refuses_of_mapping_flaw hsegment hpositions hmapping, hresolve⟩
    · exact Or.inl ⟨accepts_of_mapping hsegment hpositions hmapping, resolved, hresolve⟩

theorem exists_judge_eq_ok_iff :
    (∃ resolved, tables.judge before token = .ok resolved) ↔ tables.Accepts before token := by
  constructor
  · rintro ⟨resolved, hok⟩
    rcases tables.judge_cases before token with ⟨haccepts, _⟩ | ⟨reason, _, herror⟩
    · exact haccepts
    · rw [herror] at hok
      cases hok
  · intro haccepts
    rcases tables.judge_cases before token with ⟨_, hok⟩ | ⟨reason, hrefuses, _⟩
    · exact hok
    · exact absurd hrefuses (haccepts.not_refuses reason)

/-- The token at a place, if there is one, is accepted behind the tokens before it. -/
def AcceptsAt (tables : Tables) (tokens : List Token) (i : Nat) : Prop :=
  ∀ token, tokens[i]? = some token → tables.Accepts (tokens.take i) token

/-- Whether a token is accepted hangs on the tokens up to it. -/
theorem acceptsAt_of_take_eq {found others : List Token} {i n : Nat}
    (htake : others.take n = found.take n) (hi : i < n) (haccepts : tables.AcceptsAt found i) :
    tables.AcceptsAt others i := by
  intro token htoken
  rw [Mappings.getElem?_of_take_eq htake hi] at htoken
  rw [Mappings.take_of_take_eq htake hi]
  exact haccepts token htoken

end Tables

namespace SourceMap

variable {map : SourceMap} {options : Options}

theorem exists_index_iff (hversion : map.refusedVersion? options = none) :
    (∃ index, map.index options = .ok index) ↔
      ∀ i, map.tables.AcceptsAt (tokens map.mappings) i := by
  rw [index_eq_readAll hversion]
  constructor
  · intro hindex i token htoken
    have hread : map.reading.failure = none := by
      cases hfailure : map.reading.failure with
      | none => rfl
      | some failure => simp [hfailure] at hindex
    exact Tables.exists_judge_eq_ok_iff.mp (Mappings.exists_judge_of_failure_eq_none hread htoken)
  · intro haccepts
    have hread : map.reading.failure = none :=
      Mappings.failure_readAll_eq_none fun i token htoken =>
        Tables.exists_judge_eq_ok_iff.mpr (haccepts i token htoken)
    rw [hread]
    exact ⟨_, rfl⟩

theorem index_of_first_refusal (hversion : map.refusedVersion? options = none) {k : Nat}
    {token : Token} {reason : Reason} (htoken : (tokens map.mappings)[k]? = some token)
    (hbefore : ∀ i < k, map.tables.AcceptsAt (tokens map.mappings) i)
    (hreason : map.tables.judge ((tokens map.mappings).take k) token = .error reason) :
    map.index options = .error (token.failure reason) := by
  have hread : map.reading.values.length = k ∧
      map.reading.failure = some (token.failure reason) := by
    refine Mappings.readAll_of_first_error htoken ?_ hreason
    intro i hi earlier hearlier
    exact Tables.exists_judge_eq_ok_iff.mpr (hbefore i hi earlier hearlier)
  exact index_of_failure hversion hread.2

/-- A declared version that is refused fails the build whatever else there is. Otherwise there
is an index if every token is accepted behind the tokens before it. If one is not, the first
such token is the place of the failure and the first check that it fails is the reason, and
the tokens behind it make no difference. -/
theorem index_eq_first_refusal (map : SourceMap) (options : Options) :
    (∀ version, options.checkVersion = true → map.version = some version → version ≠ 3 →
      map.index options = .error ⟨.unsupportedVersion version, 0, 0⟩) ∧
    ((options.checkVersion = true → ∀ version, map.version = some version → version = 3) →
      ((∃ index, map.index options = .ok index) ↔
        ∀ i, map.tables.AcceptsAt (tokens map.mappings) i) ∧
      ∀ k, ¬map.tables.AcceptsAt (tokens map.mappings) k →
        (∀ i < k, map.tables.AcceptsAt (tokens map.mappings) i) →
        ∃ token failure, (tokens map.mappings)[k]? = some token ∧
          map.index options = .error failure ∧
          map.tables.Refuses ((tokens map.mappings).take k) token failure.reason ∧
          failure.line.toNat = min token.group 4294967295 ∧ failure.segment = token.segment ∧
          ∀ mappings, (tokens mappings).take (k + 1) = (tokens map.mappings).take (k + 1) →
            { map with mappings }.index options = .error failure) := by
  constructor
  · intro version hcheck hdeclared hother
    exact index_of_refusedVersion (refusedVersion?_eq_some_iff.mpr ⟨hcheck, hdeclared, hother⟩)
  · intro hsupported
    have hversion := refusedVersion?_eq_none_iff.mpr hsupported
    refine ⟨exists_index_iff hversion, ?_⟩
    intro k hfirst hbefore
    obtain ⟨token, hfound⟩ := Classical.not_forall.mp hfirst
    obtain ⟨htoken, hrejected⟩ := Classical.not_imp.mp hfound
    rcases map.tables.judge_cases ((tokens map.mappings).take k) token with
      ⟨haccepts, _⟩ | ⟨reason, hrefuses, hreason⟩
    · exact absurd haccepts hrejected
    · refine ⟨token, token.failure reason, htoken,
        index_of_first_refusal hversion htoken hbefore hreason, hrefuses,
        Word.toNat_saturate token.group, rfl, ?_⟩
      -- another mapping string that begins with the same tokens has the same first refusal
      intro mappings htake
      have hk : k < k + 1 := Nat.lt_succ_self k
      have hother : { map with mappings }.refusedVersion? options = none := hversion
      refine index_of_first_refusal hother
        ((Mappings.getElem?_of_take_eq htake hk).trans htoken) ?_ ?_
      · intro i hi
        exact Tables.acceptsAt_of_take_eq htake (Nat.lt_succ_of_lt hi) (hbefore i hi)
      · rw [Mappings.take_of_take_eq htake hk]
        exact hreason

end SourceMap

end SourceMapIndex
