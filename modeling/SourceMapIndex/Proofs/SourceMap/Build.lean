import SourceMapIndex.Proofs.Index.Grouping
import SourceMapIndex.Proofs.Mappings.Reading
import SourceMapIndex.SourceMap.Build

/-!
# The build as a reading

A build reads the tokens of the mapping string by one judgement: the token's mapping,
resolved against the tables. The first refusal is the result; without one, the index is made
of the resolved mappings in their order.

## Main definitions

- `Tables.judge` — the resolved mapping of a token behind others, or why it is refused

## Main results

- `SourceMap.index_eq_readAll` — the index of a source map is a reading of its tokens
-/

namespace SourceMapIndex

open Mappings (Token readAll tokens)

/-- The resolved mapping of a token behind the tokens before it, or why it is refused. -/
def Tables.judge (tables : Tables) : List Token → Token → Except Reason Resolved :=
  Decoder.judgeBy tables.resolve

theorem Builder.receive_eq_passOn (tables : Tables) :
    Builder.receive tables = Decoder.passOn tables.resolve Builder.insert := by
  funext builder mapping progress
  simp only [Builder.receive, Decoder.passOn]
  cases tables.resolve mapping <;> rfl

/-- A mapping that is received was resolved. -/
theorem Builder.exists_resolved_of_receive {tables : Tables} {builder next : Builder}
    {mapping : Mapping} {progress : Decoder.Progress}
    (h : receive tables builder mapping progress = .ok next) :
    ∃ resolved, tables.resolve mapping = .ok resolved ∧ next = builder.insert resolved := by
  unfold receive at h
  cases hresolve : tables.resolve mapping with
  | error reason =>
    rw [hresolve] at h
    cases h
  | ok resolved =>
    rw [hresolve] at h
    exact ⟨resolved, rfl, (Except.ok.inj h).symm⟩

namespace SourceMap

/-- What the build of a source map reads. -/
def reading (map : SourceMap) : Mappings.Reading Resolved :=
  readAll map.tables.judge [] (tokens map.mappings)

variable {map : SourceMap} {options : Options}

theorem refusedVersion?_eq_some_iff {version : UInt32} :
    map.refusedVersion? options = some version ↔
      options.checkVersion = true ∧ map.version = some version ∧ version ≠ 3 := by
  unfold refusedVersion?
  by_cases hcheck : options.checkVersion = true
  · simp only [hcheck, if_true, Option.filter_eq_some_iff, decide_eq_true_eq, true_and]
    rfl
  · simp [hcheck]

theorem refusedVersion?_eq_none_iff :
    map.refusedVersion? options = none ↔
      (options.checkVersion = true → ∀ version, map.version = some version → version = 3) := by
  unfold refusedVersion?
  by_cases hcheck : options.checkVersion = true
  · simp only [hcheck, if_true, Option.filter_eq_none_iff, decide_eq_true_eq, true_imp_iff,
      ne_eq, Decidable.not_not]
    rfl
  · simp [hcheck]

/-- A refused version is the failure, whatever else the source map holds. -/
theorem index_of_refusedVersion {version : UInt32}
    (h : map.refusedVersion? options = some version) :
    map.index options = .error ⟨.unsupportedVersion version, 0, 0⟩ := by
  simp only [index, build, h]

/-- The index of a source map whose version is not refused is what its tokens are read as. -/
theorem index_eq_readAll
    (h : map.refusedVersion? options = none) :
    map.index options =
      match map.reading.failure with
      | some failure => .error failure
      | none => .ok
          ((map.reading.values.foldl Builder.insert
            (Builder.ofSources map.sources.toList)).finish
              (Word.saturate (Text.parts ';' map.mappings).length)) := by
  obtain ⟨hstate, hfailure, hcount⟩ := Decoder.run_steps_passOn map.tables.resolve Builder.insert
    map.mappings (Builder.ofSources map.sources.toList)
  -- the reading of the run is the reading of the source map
  change _ = map.reading.values.foldl _ _ at hstate
  change _ = map.reading.failure at hfailure
  change map.reading.failure = none → _ at hcount
  simp only [index, build, h, Builder.receive_eq_passOn, hfailure]
  cases hread : map.reading.failure with
  | some failure => rfl
  | none =>
    simp only
    rw [hstate, hcount hread]

theorem index_of_toOption {index : Index} (h : (map.index options).toOption = some index) :
    map.index options = .ok index := by
  cases hresult : map.index options with
  | error failure =>
    rw [hresult] at h
    cases h
  | ok found =>
    rw [hresult] at h
    rw [Option.some.inj h]

section Version

variable (hversion : map.refusedVersion? options = none)

include hversion

theorem index_of_failure {failure : Failure} (h : map.reading.failure = some failure) :
    map.index options = .error failure := by
  rw [index_eq_readAll hversion, h]

theorem index_of_no_failure (h : map.reading.failure = none) :
    map.index options = .ok
      ((map.reading.values.foldl Builder.insert (Builder.ofSources map.sources.toList)).finish
        (Word.saturate (Text.parts ';' map.mappings).length)) := by
  rw [index_eq_readAll hversion, h]

theorem failure_reading_of_index {failure : Failure} (h : map.index options = .error failure) :
    map.reading.failure = some failure := by
  cases hfailure : map.reading.failure with
  | none =>
    rw [index_of_no_failure hversion hfailure] at h
    cases h
  | some found =>
    rw [index_of_failure hversion hfailure] at h
    exact congrArg some (Except.error.inj h)

end Version

theorem refusedVersion?_of_index {index : Index} (h : map.index options = .ok index) :
    map.refusedVersion? options = none := by
  cases hversion : map.refusedVersion? options with
  | none => rfl
  | some version =>
    rw [index_of_refusedVersion hversion] at h
    cases h

theorem reading_of_index {index : Index} (h : map.index options = .ok index) :
    map.reading.failure = none ∧
      index =
        ((map.reading.values.foldl Builder.insert (Builder.ofSources map.sources.toList)).finish
          (Word.saturate (Text.parts ';' map.mappings).length)) := by
  have hversion := refusedVersion?_of_index h
  cases hfailure : map.reading.failure with
  | some failure =>
    rw [index_of_failure hversion hfailure] at h
    cases h
  | none =>
    rw [index_of_no_failure hversion hfailure] at h
    exact ⟨rfl, (Except.ok.inj h).symm⟩

theorem isFiled_of_index {index : Index} (h : map.index options = .ok index) : index.IsFiled :=
  ⟨_, _, _, (reading_of_index h).2⟩

theorem failure_of_index {failure : Failure} (h : map.index options = .error failure) :
    (∃ version, failure = ⟨.unsupportedVersion version, 0, 0⟩) ∨
      map.reading.failure = some failure := by
  cases hversion : map.refusedVersion? options with
  | some version =>
    rw [index_of_refusedVersion hversion] at h
    exact Or.inl ⟨version, (Except.error.inj h).symm⟩
  | none => exact Or.inr (failure_reading_of_index hversion h)

end SourceMap

end SourceMapIndex
