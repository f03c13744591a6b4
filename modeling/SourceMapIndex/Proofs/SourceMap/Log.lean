import SourceMapIndex.Proofs.Mappings.Runs
import SourceMapIndex.Proofs.Mappings.Turns
import SourceMapIndex.Proofs.SourceMap.FirstFailure
import SourceMapIndex.SourceMap.Report

/-!
# What the log of a build tells

The log of a build has two authors. The decoder tells of an empty token when it meets one, long
before the build knows its result; the build tells of its result at the end. They cannot
disagree: a decoder that has met an empty token has failed, and nothing that comes before it
has failed the build already.

## Main definitions

- `LogLine` — an event as it is written
- `Failure.emptyToken?` — the empty token that a failure speaks of
- `Report.Matches` — the log tells of the result, and of nothing else

## Main results

- `Decoder.keeps_quiet` — a mapping that is received puts nothing in the log
- `Decoder.emptyTokens_run` — the empty tokens of a run are those of its failure
- `SourceMap.report_matches` — the log of every build
-/

namespace SourceMapIndex

open Mappings (Token tokens)

/-- An event as it is written. -/
structure LogLine where
  level : Level
  fields : List (String × Json)

/-- The line of an event: its message stands before its fields. -/
def Event.line (event : Event) : LogLine :=
  ⟨event.level, ("message", .string event.message) :: event.fields⟩

/-- The place of the empty token that a failure speaks of, if it speaks of one. -/
def Failure.emptyToken? (failure : Failure) : Option (UInt32 × Nat) :=
  if failure.reason = .emptySegment then some (failure.line, failure.segment) else none

/-! ### Reasons that no empty token has -/

theorem Segment.parse_ne_emptySegment (token : String) :
    parse token ≠ .error .emptySegment := by
  rw [parse_eq]
  cases Vlq.decode token with
  | error fault => simp
  | ok fields => cases hsegment : ofFields? fields <;> simp [hsegment]

theorem Tables.concernsTable_of_resolve {tables : Tables} {mapping : Mapping} {reason : Reason}
    (h : tables.resolve mapping = .error reason) : reason.concernsTable := by
  rcases tables.resolve_cases mapping with ⟨found, hflaw, hresolve⟩ | ⟨-, resolved, hresolve, -⟩
  · cases hresolve.symm.trans h
    unfold flaw? sourceFlaw? at hflaw
    split at hflaw
    · cases hname : mapping.name with
      | none => simp [hname, nameFlaw?] at hflaw
      | some index =>
        simp only [hname, nameFlaw?, Option.none_or, Option.ite_none_left_eq_some,
          Option.some.injEq] at hflaw
        rw [← hflaw.2]
        rfl
    · cases hflaw
      rfl
  · cases hresolve.symm.trans h

namespace Decoder

variable {progress after : Progress} {line : UInt32} {segment : Nat} {text : String}

/-- A token that fails is taken down if it is empty. -/
theorem Progress.emptyTokens_of_read_error {failure : Failure}
    (h : progress.read line segment text = (.error failure, after)) :
    after.emptyTokens = progress.emptyTokens ++ failure.emptyToken?.toList := by
  unfold read at h
  split at h
  · cases h
    rfl
  · cases hparse : Segment.parse text with
    | error reason =>
      have hreason : reason ≠ .emptySegment := by
        rintro rfl
        exact Segment.parse_ne_emptySegment text hparse
      rw [hparse] at h
      cases h
      simp [Failure.emptyToken?, hreason]
    | ok parsed =>
      simp only [hparse, Cursor.apply_eq] at h
      cases hflaw : (progress.cursor.move parsed).flaw? with
      | none =>
        rw [hflaw] at h
        cases h
      | some reason =>
        obtain ⟨field, -, rfl⟩ := Cursor.flaw?_eq_some_iff.mp hflaw
        rw [hflaw] at h
        cases h
        simp [Failure.emptyToken?]

theorem Progress.emptyTokens_of_read_ok {mapping : Mapping}
    (h : progress.read line segment text = (.ok mapping, after)) :
    after.emptyTokens = progress.emptyTokens := by
  obtain ⟨_, -, -, -, rfl⟩ := of_read_ok h
  rfl

/-- As long as mappings are received no empty token is taken down. -/
theorem keeps_quiet (tables : Tables) :
    Keeps (Builder.receive tables) fun progress _ => progress.emptyTokens = [] where
  startLine := fun _ hquiet => hquiet
  read := fun hquiet hread _ => (Progress.emptyTokens_of_read_ok hread).trans hquiet

/-- A run takes down the empty token that it fails at, and no other. -/
theorem emptyTokens_run (tables : Tables) (steps : List Mappings.Step) {progress : Progress}
    (hquiet : progress.emptyTokens = []) (builder : Builder) :
    (run (Builder.receive tables) steps progress builder).progress.emptyTokens =
      ((run (Builder.receive tables) steps progress builder).failure.bind
        Failure.emptyToken?).toList := by
  have hstart : (fun progress (_ : Builder) => progress.emptyTokens = []) progress builder := hquiet
  rcases (keeps_quiet tables).run_cases steps hstart with
    ⟨hfailure, hend⟩ | ⟨last, failure, _, _, _, hfailure, hlast, hread | ⟨mapping, hread, huse⟩⟩
  · rw [hfailure, hend]
    rfl
  · rw [hfailure, Progress.emptyTokens_of_read_error hread, hlast]
    rfl
  · -- a mapping that is not received has a token that was not empty
    rw [hfailure, Progress.emptyTokens_of_read_ok hread, hlast]
    unfold Builder.receive at huse
    split at huse
    · next reason hresolve =>
      have hreason : reason ≠ .emptySegment := by
        rintro rfl
        simpa [Reason.concernsTable] using Tables.concernsTable_of_resolve hresolve
      cases huse
      simp [Failure.emptyToken?, hreason]
    · cases huse

end Decoder

/-- The log of a build tells of its result, and of an empty token only if that is the result. -/
structure Report.Matches (report : Report) (map : SourceMap) (options : Options) : Prop where
  result : report.result = map.index options
  build : report.span.name = "build_reverse_index_with_options" ∧ report.span.level = .debug
  /-- The span has the name of the file, unless it is absent, and the sizes of both tables. -/
  span : report.span.fields =
    (match map.file with
      | some file => [("file", Json.string file)]
      | none => []) ++ [("sources", .ofNat map.sources.size), ("names", .ofNat map.names.size)]
  built : ∀ index, map.index options = .ok index →
    report.events.map Event.line =
      [⟨.debug, [("message", .string "built reverse index"),
        ("generated_lines", .ofNat index.generatedLines.toNat), ("locations", .ofNat index.size),
        ("mappings", .ofNat index.mappingCount)]⟩]
  emptySegment : ∀ line segment, map.index options = .error ⟨.emptySegment, line, segment⟩ →
    report.events.map Event.line =
      [⟨.trace, [("message", .string "empty segment token"), ("line", .ofNat line.toNat),
        ("segment", .ofNat segment)]⟩,
      ⟨.debug, [("message", .string "source map decode failed"),
        ("error", .string (Failure.message ⟨.emptySegment, line, segment⟩))]⟩]
  failed : ∀ failure, map.index options = .error failure → failure.reason ≠ .emptySegment →
    report.events.map Event.line =
      [⟨.debug, [("message", .string "source map decode failed"),
        ("error", .string failure.message)]⟩]
  /-- An empty token is told of if the version is not refused and every token before it is
  accepted. -/
  tells : ∀ line segment, Event.emptyToken line segment ∈ report.events ↔
    (options.checkVersion = true → ∀ version, map.version = some version → version = 3) ∧
      ∃ (k : Nat) (token : Token), (tokens map.mappings)[k]? = some token ∧ token.text = "" ∧
        (∀ i < k, map.tables.AcceptsAt (tokens map.mappings) i) ∧
        line = Word.saturate token.group ∧ segment = token.segment

namespace SourceMap

variable {map : SourceMap} {options : Options}

/-- The empty token that a result speaks of. -/
def emptyTokenOf : Except Failure Index → Option (UInt32 × Nat)
  | .ok _ => none
  | .error failure => failure.emptyToken?

theorem emptyTokens_build (map : SourceMap) (options : Options) :
    (map.build options).2 = (emptyTokenOf (map.index options)).toList := by
  unfold index build
  split
  · simp [emptyTokenOf, Failure.emptyToken?]
  · simp only
    have hquiet : Decoder.Progress.emptyTokens {} = [] := rfl
    have hrun := Decoder.emptyTokens_run map.tables (Mappings.steps map.mappings) hquiet
      (Builder.ofSources map.sources.toList)
    split
    · next failure hfailure =>
      rw [hrun, hfailure]
      rfl
    · next hfailure =>
      rw [hrun, hfailure]
      rfl

theorem events_report (map : SourceMap) (options : Options) :
    (map.report options).events =
      (emptyTokenOf (map.index options)).toList.map (fun (line, segment) =>
        .emptyToken line segment) ++ [Event.ofResult (map.index options)] := by
  rw [← emptyTokens_build]
  rfl

theorem emptyToken_mem_report_iff {line : UInt32} {segment : Nat} :
    .emptyToken line segment ∈ (map.report options).events ↔
      map.index options = .error ⟨.emptySegment, line, segment⟩ := by
  rw [events_report]
  cases map.index options with
  | ok index => simp [emptyTokenOf, Event.ofResult]
  | error failure =>
    obtain ⟨reason, failureLine, place⟩ := failure
    by_cases hreason : reason = .emptySegment
    · simp [emptyTokenOf, Failure.emptyToken?, Event.ofResult, hreason, eq_comm]
    · simp [emptyTokenOf, Failure.emptyToken?, Event.ofResult, hreason]

/-- A build fails at an empty token if nothing before the token fails it. -/
theorem index_eq_emptySegment_iff {line : UInt32} {segment : Nat} :
    map.index options = .error ⟨.emptySegment, line, segment⟩ ↔
      map.refusedVersion? options = none ∧
        ∃ (k : Nat) (token : Token), (tokens map.mappings)[k]? = some token ∧ token.text = "" ∧
          (∀ i < k, map.tables.AcceptsAt (tokens map.mappings) i) ∧
          line = Word.saturate token.group ∧ segment = token.segment := by
  constructor
  · intro h
    have hversion : map.refusedVersion? options = none := by
      cases hrefused : map.refusedVersion? options with
      | none => rfl
      | some version =>
        rw [index_of_refusedVersion hrefused] at h
        cases h
    obtain ⟨k, token, reason, htoken, hfailure, hbefore, hjudge⟩ :=
      Mappings.exists_of_failure_readAll (failure_reading_of_index hversion h)
    cases hfailure
    refine ⟨hversion, k, token, htoken, ?_, ?_, rfl, rfl⟩
    · rcases map.tables.judge_cases ((tokens map.mappings).take k) token with
        ⟨-, resolved, hok⟩ | ⟨_, hrefuses, herror⟩
      · cases hok.symm.trans hjudge
      · cases herror.symm.trans hjudge
        cases hrefuses with
        | emptySegment hempty => exact hempty
    · intro i hi earlier hearlier
      exact Tables.exists_judge_eq_ok_iff.mp (hbefore i hi earlier hearlier)
  · rintro ⟨hversion, k, token, htoken, hempty, hbefore, rfl, rfl⟩
    have hflaw : token.flaw? ((tokens map.mappings).take k) = some .emptySegment := by
      rw [Token.flaw?, if_pos hempty]
    exact index_of_first_refusal hversion htoken hbefore (Decoder.judgeBy_of_flaw hflaw)

/-- The log of every build tells of its result, and of no empty token that is not the result.
One that stands behind another failure, or under a refused version, is not in the log. -/
theorem report_matches (map : SourceMap) (options : Options) :
    (map.report options).Matches map options where
  result := rfl
  build := ⟨rfl, rfl⟩
  span := by cases hfile : map.file <;> simp [report, span, Span.fields, hfile]
  built := by
    intro index h
    rw [events_report, h]
    rfl
  emptySegment := by
    intro line segment h
    rw [events_report, h]
    rfl
  failed := by
    intro failure h hreason
    rw [events_report, h]
    simp only [emptyTokenOf, Failure.emptyToken?, if_neg hreason]
    rfl
  tells := by
    intro line segment
    rw [emptyToken_mem_report_iff, index_eq_emptySegment_iff, refusedVersion?_eq_none_iff]

/-- The source of the first segment is missing, so that the empty token behind it is not met. -/
example : ((ofMappings "ACAA,,A" #["a.js"] #[]).report {}).events =
    [.failed "source index 1 out of range (1 sources) (generated line 0, segment 0)"] := by
  decide +kernel

end SourceMap

end SourceMapIndex
