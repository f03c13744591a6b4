import SourceMapIndex.Proofs.Mappings.Order
import SourceMapIndex.Proofs.Mappings.Turns
import SourceMapIndex.Proofs.SourceMap.FirstFailure
import SourceMapIndex.Proofs.Vlq.Shortest

/-!
# Failures tell the truth

A failure gives a group and a place in it. There is a token at that place, and what the
failure says of it can be checked against its text: what it is read as, how many values it
has, and how large the tables are. A position that was led out of range was in range before,
so it cannot be farther out than one value leads.

## Main definitions

- `Segment.HasCount` — a text is read as a given number of values
- `Reason.TrueOf` — what a reason says is true of a token's text
- `Failure.TrueOf` — what a failure says is true of a source map

## Main results

- `Tables.Refuses.trueOf` — a token is refused for a reason that is true of it
- `SourceMap.cause?_of_index` — the cause that the failure of a build gives
- `SourceMap.failures_are_true` — the failures of a decoder and of a build are true
-/

namespace SourceMapIndex

open Mappings (Token groups readAll sums tokens)

/-- A text that is read as so many values. -/
def Segment.HasCount (text : String) (count : Nat) : Prop :=
  ∃ values, Vlq.decode text = .ok values ∧ values.length = count

/-- What a reason says of the text of a token, and of the tables, is true. -/
def Reason.TrueOf (tables : Tables) (text : String) : Reason → Prop
  | .emptySegment => text = ""
  | .malformedSegment token fault => token = text ∧ Vlq.decode text = .error fault
  | .fieldCount token count =>
    token = text ∧ Segment.HasCount text count ∧ count ∉ [0, 1, 4, 5]
  | .positionOutOfRange field value =>
    (∃ count ∈ field.counts, Segment.HasCount text count) ∧
      (-2147483647 ≤ value ∧ value ≤ -1 ∨ 4294967296 ≤ value ∧ value ≤ 6442450942)
  | .sourceOutOfRange index size =>
    (∃ count ∈ [1, 4, 5], Segment.HasCount text count) ∧
      size = tables.sources.size ∧ (index < 0 ∨ size ≤ index)
  | .nameOutOfRange index size =>
    Segment.HasCount text 5 ∧ size = tables.names.size ∧ (index < 0 ∨ size ≤ index)
  | .unsupportedVersion _ => False

/-- The cause of a true reason is the fault that the text of the token is not read for. -/
theorem Reason.TrueOf.cause?_eq_some_iff {tables : Tables} {text : String} {reason : Reason}
    (h : reason.TrueOf tables text) (fault : Vlq.Fault) :
    reason.cause? = some fault ↔ Vlq.decode text = .error fault := by
  have hread : ∀ {count : Nat}, Segment.HasCount text count → Vlq.decode text ≠ .error fault := by
    rintro _ ⟨values, hvalues, -⟩ hfault
    cases hvalues.symm.trans hfault
  cases reason with
  | emptySegment =>
    have hempty : Vlq.decode "" = .ok [] := by cbv
    rw [show text = "" from h, hempty]
    simp [cause?]
  | malformedSegment token found =>
    obtain ⟨-, hfault⟩ := h
    simp [cause?, hfault]
  | fieldCount token count => simpa [cause?] using hread h.2.1
  | positionOutOfRange field value =>
    obtain ⟨⟨count, -, hcount⟩, -⟩ := h
    simpa [cause?] using hread hcount
  | sourceOutOfRange index size =>
    obtain ⟨⟨count, -, hcount⟩, -⟩ := h
    simpa [cause?] using hread hcount
  | nameOutOfRange index size => simpa [cause?] using hread h.1
  | unsupportedVersion version => exact h.elim

/-- The place of a failure is that of a token, of which the reason is true. -/
def Failure.TrueOf (map : SourceMap) (failure : Failure) : Prop :=
  ∃ group text, (groups map.mappings)[failure.line.toNat]? = some group ∧
    group.tokens[failure.segment]? = some text ∧ failure.reason.TrueOf map.tables text

theorem Segment.Spelled.exists_hasCount {text : String} (h : Spelled text) :
    ∃ count ∈ [1, 4, 5], HasCount text count := by
  obtain ⟨-, values, hvalues, hcount⟩ := h
  exact ⟨values.length, hcount, values, hvalues, rfl⟩

namespace Tables

variable {tables : Tables} {before : List Token} {token : Token}

/-- A position that a token leads out of range comes from a word, by one value of the token. -/
theorem trueOf_positionOutOfRange (hsegment : Segment.Spelled token.text)
    (hrange : (sums token.group before).InRange) (field : PositionField)
    (hout : ¬Word.Fits (field.valueAt (token.reached before))) :
    (Reason.positionOutOfRange field (field.valueAt (token.reached before))).TrueOf
      tables token.text := by
  obtain ⟨-, values, hvalues, hlength⟩ := hsegment
  obtain ⟨segment, hfields⟩ := Segment.exists_fields_of_count hvalues hlength
  rw [Token.reached_eq hrange hfields] at hout ⊢
  obtain ⟨hcount, step, hstep, hmoved⟩ := hrange.exists_step hout
  refine ⟨⟨segment.fields.length, hcount, segment.fields, hfields, rfl⟩, ?_⟩
  -- the position was a word, and the step is below `2 ^ 31` in magnitude
  have hsmall := Vlq.natAbs_le_of_decode hfields step hstep
  have hfits := hrange.fits field
  rw [hmoved, Word.wrap_add_of_fits hfits hsmall] at hout ⊢
  unfold Word.Fits at hfits hout
  omega

/-- A token is refused for a reason that is true of it, if the values before it were positions. -/
theorem Refuses.trueOf {reason : Reason} (h : tables.Refuses before token reason)
    (hrange : (sums token.group before).InRange) : reason.TrueOf tables token.text := by
  cases h with
  | emptySegment hempty => exact hempty
  | malformedSegment _ hfault => exact ⟨rfl, hfault⟩
  | @fieldCount values htext hvalues hcount =>
    refine ⟨rfl, ⟨values, hvalues, rfl⟩, ?_⟩
    -- only the empty text has no values, and it is refused before its values are counted
    have hzero : values.length ≠ 0 := by
      intro hnone
      rw [List.length_eq_zero_iff.mp hnone] at hvalues
      exact htext (Vlq.eq_empty_of_decode hvalues)
    simpa [hzero] using hcount
  | generatedColumn hsegment hout =>
    exact trueOf_positionOutOfRange hsegment hrange .generatedColumn hout
  | sourceLine hsegment _ hout => exact trueOf_positionOutOfRange hsegment hrange .sourceLine hout
  | sourceColumn hsegment _ _ hout =>
    exact trueOf_positionOutOfRange hsegment hrange .sourceColumn hout
  | source hsegment _ hout => exact ⟨hsegment.exists_hasCount, rfl, not_covers_iff.mp hout⟩
  | name hsegment _ _ hname hout =>
    refine ⟨?_, rfl, not_covers_iff.mp hout⟩
    obtain ⟨-, values, hvalues, -⟩ := hsegment
    refine ⟨values, hvalues, ?_⟩
    simpa [Token.hasName, Token.values, hvalues] using hname

end Tables

namespace Mappings

/-- Behind tokens that have led to words, the values that the next token starts from are words. -/
theorem inRange_sums {mappings : String} {k : Nat} {token : Token}
    (htoken : (tokens mappings)[k]? = some token)
    (hbefore : ∀ i < k, ∀ earlier, (tokens mappings)[i]? = some earlier →
      (earlier.reached ((tokens mappings).take i)).InRange) :
    (sums token.group ((tokens mappings).take k)).InRange := by
  cases k with
  | zero =>
    rw [List.take_zero]
    exact Cursor.inRange_start
  | succ i =>
    obtain ⟨hk, -⟩ := List.getElem?_eq_some_iff.mp htoken
    obtain ⟨last, hlast⟩ : ∃ last, (tokens mappings)[i]? = some last :=
      ⟨_, List.getElem?_eq_getElem (Nat.lt_of_succ_lt hk)⟩
    have hreached := hbefore i (Nat.lt_succ_self i) last hlast
    rw [reached_take hlast] at hreached
    rcases order_of_getElem? (Nat.lt_succ_self i) hlast htoken with hgroup | ⟨hgroup, -⟩
    · -- the token is the first of its group, and its generated column starts anew
      rw [sums_startLine last.group]
      · exact hreached.startLine
      · intro earlier hearlier
        obtain ⟨j, hj⟩ := List.getElem?_of_mem hearlier
        rw [List.getElem?_take, Option.ite_none_right_eq_some] at hj
        have hle := group_le_of_getElem? (Nat.le_of_lt_succ hj.1) hj.2 hlast
        omega
    · exact hgroup ▸ hreached

/-- Why a decoder refuses a token concerns the token, and no table. -/
theorem Token.concernsSegment_of_flaw {before : List Token} {token : Token} {reason : Reason}
    (h : token.flaw? before = some reason) : reason.concernsSegment := by
  unfold Token.flaw? at h
  by_cases hempty : token.text = ""
  · rw [if_pos hempty] at h
    cases h
    rfl
  · rw [if_neg hempty] at h
    cases hdecode : Vlq.decode token.text with
    | error fault =>
      rw [hdecode] at h
      cases h
      rfl
    | ok values =>
      simp only [hdecode] at h
      split at h
      · obtain ⟨field, -, rfl⟩ := Cursor.flaw?_eq_some_iff.mp h
        rfl
      · cases h
        rfl

theorem Token.flaw?_of_judge {before : List Token} {token : Token} {reason : Reason}
    (h : token.judge before = .error reason) : token.flaw? before = some reason := by
  unfold judge at h
  cases hflaw : token.flaw? before with
  | none => simp [hflaw] at h
  | some found =>
    rw [hflaw] at h
    exact congrArg some (Except.error.inj h)

/-- The only failure that a decoder answers with is that of its reading. -/
theorem failure_of_answer {mappings : String} {n : Nat} {failure : Failure}
    (h : (Decoder.ofString mappings).answer n = some (.error failure)) :
    (readAll Token.judge [] (tokens mappings)).failure = some failure := by
  rw [answer_eq_readAll] at h
  have hmem := List.mem_of_getElem? h
  simpa using hmem

end Mappings

namespace SourceMap

variable {map : SourceMap}

/-- The failure of a token is true if the values before the token were positions. -/
theorem trueOf_failure (hgroups : (groups map.mappings).length ≤ 4294967296) {k : Nat}
    {token : Token} {reason : Reason} (htoken : (tokens map.mappings)[k]? = some token)
    (hrange : (sums token.group ((tokens map.mappings).take k)).InRange)
    (hrefuses : map.tables.Refuses ((tokens map.mappings).take k) token reason) :
    (token.failure reason).TrueOf map := by
  obtain ⟨group, hgroup, htext⟩ :=
    Mappings.exists_group_of_mem_tokens (List.mem_of_getElem? htoken)
  obtain ⟨hlt, -⟩ := List.getElem?_eq_some_iff.mp hgroup
  have hline : (token.failure reason).line.toNat = token.group :=
    Word.toNat_saturate_of_lt (Nat.lt_of_lt_of_le hlt hgroups)
  exact ⟨group, token.text, hline ▸ hgroup, htext, hrefuses.trueOf hrange⟩

theorem trueOf_of_answer (hgroups : (groups map.mappings).length ≤ 4294967296) {n : Nat}
    {failure : Failure}
    (h : (Decoder.ofString map.mappings).answer n = some (.error failure)) :
    failure.TrueOf map := by
  obtain ⟨k, token, reason, htoken, rfl, hbefore, hjudge⟩ :=
    Mappings.exists_of_failure_readAll (Mappings.failure_of_answer h)
  have hrange := Mappings.inRange_sums htoken fun i hi earlier hearlier =>
    Token.inRange_of_not_fails (Token.exists_judge_eq_ok_iff.mp (hbefore i hi earlier hearlier))
  exact trueOf_failure hgroups htoken hrange
    (Tables.refuses_of_flaw (Token.flaw?_of_judge hjudge))

theorem trueOf_of_index (hgroups : (groups map.mappings).length ≤ 4294967296)
    {options : Options} {failure : Failure} (h : map.index options = .error failure)
    (hversion : ∀ version, failure.reason ≠ .unsupportedVersion version) :
    failure.TrueOf map := by
  rcases failure_of_index h with ⟨version, rfl⟩ | hreading
  · exact absurd rfl (hversion version)
  · obtain ⟨k, token, reason, htoken, rfl, hbefore, hjudge⟩ :=
      Mappings.exists_of_failure_readAll hreading
    have hrange := Mappings.inRange_sums htoken fun i hi earlier hearlier =>
      (Tables.exists_judge_eq_ok_iff.mp (hbefore i hi earlier hearlier)).positions
    rcases map.tables.judge_cases ((tokens map.mappings).take k) token with
      ⟨-, resolved, hok⟩ | ⟨_, hrefuses, herror⟩
    · cases hok.symm.trans hjudge
    · cases herror.symm.trans hjudge
      exact trueOf_failure hgroups htoken hrange hrefuses

/-- A build that fails at a token gives a cause exactly if the text of the token is not read as
a row of integers, and then the cause is why. -/
theorem cause?_of_index (hgroups : (groups map.mappings).length ≤ 4294967296)
    {options : Options} {failure : Failure} (h : map.index options = .error failure)
    (hversion : ∀ version, failure.reason ≠ .unsupportedVersion version) :
    ∃ group text, (groups map.mappings)[failure.line.toNat]? = some group ∧
      group.tokens[failure.segment]? = some text ∧
        ∀ fault, failure.reason.cause? = some fault ↔ Vlq.decode text = .error fault := by
  obtain ⟨group, text, hgroup, htext, htrue⟩ := trueOf_of_index hgroups h hversion
  exact ⟨group, text, hgroup, htext, htrue.cause?_eq_some_iff⟩

/-- A decoder never fails for want of a table entry. As long as groups can be told apart by
words, what a decoder or a build fails with is true of the source map, refused versions apart:
the place is that of a token, and the reason can be seen from the token's text and the tables. -/
theorem failures_are_true (map : SourceMap) :
    (∀ n failure, (Decoder.ofString map.mappings).answer n = some (.error failure) →
      failure.reason.concernsSegment) ∧
    ((groups map.mappings).length ≤ 4294967296 →
      (∀ n failure, (Decoder.ofString map.mappings).answer n = some (.error failure) →
        failure.TrueOf map) ∧
      ∀ options failure, map.index options = .error failure →
        (∀ version, failure.reason ≠ .unsupportedVersion version) → failure.TrueOf map) := by
  refine ⟨?_, fun hgroups =>
    ⟨fun n failure => trueOf_of_answer hgroups, fun options failure => trueOf_of_index hgroups⟩⟩
  intro n failure h
  obtain ⟨k, token, reason, -, rfl, -, hjudge⟩ :=
    Mappings.exists_of_failure_readAll (Mappings.failure_of_answer h)
  exact Token.concernsSegment_of_flaw (Token.flaw?_of_judge hjudge)

/-- The second segment of the second line leads the line of the source below zero. -/
theorem failures_are_true_below_zero :
    let map := ofMappings ";AAAA,CADA" #["a.js"] #[]
    let failure : Failure := ⟨.positionOutOfRange .sourceLine (-1), 1, 1⟩
    (Decoder.ofString map.mappings).answer 1 = some (.error failure) ∧
      map.index {} = .error failure ∧ failure.reason.concernsSegment ∧ failure.TrueOf map := by
  intro map failure
  have hanswer : (Decoder.ofString map.mappings).answer 1 = some (.error failure) := by cbv
  have hindex : map.index {} = .error failure := by cbv
  have hgroups : (groups map.mappings).length ≤ 4294967296 := by
    have hlength : (groups map.mappings).length = 2 := by cbv
    omega
  obtain ⟨hconcerns, htrue⟩ := failures_are_true map
  exact ⟨hanswer, hindex, hconcerns 1 failure hanswer,
    (htrue hgroups).2 {} failure hindex fun version => by simp [failure]⟩

end SourceMap

end SourceMapIndex
