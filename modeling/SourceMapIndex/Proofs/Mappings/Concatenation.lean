import SourceMapIndex.Proofs.Mappings.Sums
import SourceMapIndex.Proofs.Text.Parts

/-!
# Mapping strings with a semicolon between them

Nothing behind a semicolon has any influence on what stands before it. In the other direction
the only influence is that of the running values: behind the semicolon a decoder does what it
would do at the start of a text, from the values that it has come to, and the generated
lines are counted on.

## Main definitions

- `Mappings.decodeFrom` — what becomes of a mapping string that is read from given values
- `Mappings.decodeBehind` — what becomes of it behind another one and a semicolon
- `Mappings.Item` — a mapping or a failure
- `Item.later` — an item some lines further down
- `Cursor.advance` — the running values after a token, or why it is refused

## Main results

- `Decoder.outcome_append` — steps that are read one after the other
- `Decoder.items_outcome_later` — the same steps some lines further down
- `Mappings.items_append` — the items of two mapping strings with a semicolon between them
-/

namespace SourceMapIndex

namespace Word

/-- The word that comes `count` places after `w`, as far as words go. -/
def later (count : Nat) (w : UInt32) : UInt32 :=
  saturate (count + w.toNat)

theorem later_saturate (count n : Nat) : later count (saturate n) = saturate (count + n) := by
  apply UInt32.toNat_inj.mp
  simp only [later, toNat_saturate]
  omega

theorem toNat_later {count : Nat} {w : UInt32} (h : count + w.toNat < 4294967296) :
    (later count w).toNat = count + w.toNat :=
  toNat_saturate_of_lt h

end Word

/-- The same mapping, `count` generated lines further down. -/
def Mapping.later (count : Nat) (mapping : Mapping) : Mapping :=
  { mapping with
    generated := { mapping.generated with line := Word.later count mapping.generated.line } }

/-- The same failure, `count` generated lines further down. -/
def Failure.later (count : Nat) (failure : Failure) : Failure :=
  { failure with line := Word.later count failure.line }

namespace Mappings

/-- What a decoder answers with: a mapping or a failure. -/
abbrev Item :=
  Except Failure Mapping

namespace Item

/-- The generated line that an item stands at. -/
def line : Item → UInt32
  | .ok mapping => mapping.generated.line
  | .error failure => failure.line

/-- The same item, `count` generated lines further down. -/
def later (count : Nat) : Item → Item
  | .ok mapping => .ok (mapping.later count)
  | .error failure => .error (failure.later count)

theorem line_later (count : Nat) (item : Item) :
    (item.later count).line = Word.later count item.line := by
  cases item <;> rfl

end Item

/-- The same step, `count` generated lines further down. -/
def Step.later (count : Nat) : Step → Step
  | .line n => .line (Word.later count n)
  | .token n segment text => .token (Word.later count n) segment text

/-- The generated line that a step belongs to. -/
def Step.generatedLine : Step → UInt32
  | .line n => n
  | .token n _ _ => n

/-- What becomes of a mapping string that is read from given running values. -/
def decodeFrom (cursor : Cursor) (mappings : String) : Decoder.Outcome (List Mapping) :=
  Decoder.outcome (steps mappings) { cursor }

/-- What becomes of a mapping string behind a semicolon: it is read from the running values at
the end of the text before, in a generated line of its own. -/
def decodeBehind (before mappings : String) : Decoder.Outcome (List Mapping) :=
  decodeFrom (decode before).progress.cursor.startLine mappings

end Mappings

/-- The running values after a token, with the name of its mapping; or why the token is
refused. The generated line makes no difference to it. -/
def Cursor.advance (cursor : Cursor) (text : String) : Except Reason (Cursor × Option Int) :=
  if text.isEmpty then .error .emptySegment
  else
    match Segment.parse text with
    | .error reason => .error reason
    | .ok segment =>
      match (cursor.move segment).flaw? with
      | some reason => .error reason
      | none => .ok (cursor.move segment, (cursor.move segment).nameFor segment)

namespace Decoder

open Mappings (Step Item)

/-- A token is refused, or read as the mapping at the values that it leads to. -/
theorem Progress.read_cases (progress : Progress) (line : UInt32) (segment : Nat) (text : String) :
    (∃ reason after, progress.cursor.advance text = .error reason ∧
      progress.read line segment text = (.error ⟨reason, line, segment⟩, after)) ∨
    ∃ moved name after, progress.cursor.advance text = .ok (moved, name) ∧
      progress.read line segment text = (.ok (moved.mappingAt line name), after) ∧
        after.cursor = moved := by
  unfold Progress.read Cursor.advance
  by_cases hempty : text.isEmpty
  · simp only [if_pos hempty]
    exact Or.inl ⟨_, _, rfl, rfl⟩
  · simp only [if_neg hempty]
    cases Segment.parse text with
    | error reason => exact Or.inl ⟨_, _, rfl, rfl⟩
    | ok parsed =>
      simp only [Cursor.apply_eq]
      cases (progress.cursor.move parsed).flaw? with
      | some reason => exact Or.inl ⟨_, _, rfl, rfl⟩
      | none => exact Or.inr ⟨_, _, _, rfl, rfl, rfl⟩

namespace Outcome

theorem items_prepend (mappings : List Mapping) (outcome : Outcome (List Mapping)) :
    (outcome.prepend mappings).items = mappings.map .ok ++ outcome.items := by
  simp [items, prepend, List.append_assoc]

theorem items_of_failure_eq_none {outcome : Outcome (List Mapping)} (h : outcome.failure = none) :
    outcome.items = outcome.state.map .ok := by
  simp [items, h]

end Outcome

/-- Steps are read one after the other: a failure ends the reading, otherwise the steps that
follow are read from the progress made. -/
theorem outcome_append (steps others : List Step) (progress : Progress) :
    outcome (steps ++ others) progress =
      if (outcome steps progress).failure = none then
        (outcome others (outcome steps progress).progress).prepend (outcome steps progress).state
      else outcome steps progress := by
  induction steps generalizing progress with
  | nil => rfl
  | cons step rest ih =>
    cases step with
    | line line => exact ih (progress.startLine line)
    | token line segment text =>
      rcases hread : progress.read line segment text with ⟨item, after⟩
      cases item with
      | error failure =>
        simp only [List.cons_append, outcome, hread]
        rfl
      | ok mapping =>
        simp only [List.cons_append, outcome, hread, ih after]
        by_cases hnone : (outcome rest after).failure = none
        · have hcons : ((outcome rest after).cons mapping).failure = none := hnone
          rw [if_pos hnone, if_pos hcons]
          rfl
        · have hcons : ((outcome rest after).cons mapping).failure ≠ none := hnone
          rw [if_neg hnone, if_neg hcons]

/-- The items of some steps stand at the lines of these steps. -/
theorem exists_step_of_mem_items {steps : List Step} {progress : Progress} {item : Item}
    (h : item ∈ (outcome steps progress).items) :
    ∃ step ∈ steps, step.generatedLine = item.line := by
  induction steps generalizing progress with
  | nil => simp [outcome, Outcome.items] at h
  | cons step rest ih =>
    cases step with
    | line line =>
      obtain ⟨found, hfound, hline⟩ := ih h
      exact ⟨found, List.mem_cons_of_mem _ hfound, hline⟩
    | token line segment text =>
      rcases progress.read_cases line segment text with
        ⟨reason, after, -, hread⟩ | ⟨moved, name, after, -, hread, -⟩
      · have hitem : item = .error ⟨reason, line, segment⟩ := by
          simpa [outcome, hread, Outcome.items] using h
        exact ⟨_, List.mem_cons_self, hitem ▸ rfl⟩
      · simp only [outcome, hread, Outcome.items_cons, List.mem_cons] at h
        rcases h with rfl | hrest
        · exact ⟨_, List.mem_cons_self, rfl⟩
        · obtain ⟨found, hfound, hline⟩ := ih hrest
          exact ⟨found, List.mem_cons_of_mem _ hfound, hline⟩

/-- Steps that stand some lines further down yield the same items, as many lines further
down, if they are read from the same running values. -/
theorem items_outcome_later (count : Nat) (steps : List Step) {progress other : Progress}
    (h : progress.cursor = other.cursor) :
    (outcome (steps.map (Step.later count)) progress).items =
      (outcome steps other).items.map (Item.later count) := by
  induction steps generalizing progress other with
  | nil => rfl
  | cons step rest ih =>
    cases step with
    | line line => exact ih (congrArg Cursor.startLine h)
    | token line segment text =>
      simp only [List.map_cons, Step.later, outcome]
      rcases other.read_cases line segment text with
        ⟨reason, after, hadvance, hread⟩ | ⟨moved, name, after, hadvance, hread, hcursor⟩
      · rcases progress.read_cases (Word.later count line) segment text with
          ⟨found, left, hfound, hlater⟩ | ⟨_, _, _, hfound, -⟩
        · rw [h, hadvance] at hfound
          cases hfound
          simp only [hread, hlater]
          rfl
        · rw [h, hadvance] at hfound
          cases hfound
      · rcases progress.read_cases (Word.later count line) segment text with
          ⟨_, _, hfound, -⟩ | ⟨there, found, left, hfound, hlater, hleft⟩
        · rw [h, hadvance] at hfound
          cases hfound
        · rw [h, hadvance] at hfound
          cases hfound
          simp only [hread, hlater, Outcome.items_cons, List.map_cons,
            ih (hleft.trans hcursor.symm)]
          rfl

end Decoder

namespace Mappings

theorem placesFrom_append (first : Nat) (texts others : List String) :
    placesFrom first (texts ++ others) =
      placesFrom first texts ++ placesFrom (first + texts.length) others := by
  simp only [placesFrom, List.zipIdx_append, List.flatMap_append]

theorem step_placesFrom (first : Nat) (texts : List String) :
    (placesFrom first texts).map Place.step =
      ((placesFrom 0 texts).map Place.step).map (Step.later first) := by
  simp only [placesFrom]
  rw [List.zipIdx_eq_map_add]
  simp only [List.flatMap_map, List.map_flatMap, List.map_cons, List.map_map]
  apply List.flatMap_congr
  rintro ⟨text, n⟩ _
  simp [tokensOf, Place.step, Step.later, Word.later_saturate, Function.comp_def]

theorem exists_lt_of_mem_steps {mappings : String} {step : Step} (h : step ∈ steps mappings) :
    ∃ n < (Text.parts ';' mappings).length, step.generatedLine = Word.saturate n := by
  obtain ⟨group, hgroup, hstep⟩ := List.mem_flatMap.mp h
  obtain ⟨⟨text, n⟩, hn, rfl⟩ := List.mem_map.mp hgroup
  refine ⟨n, by simpa using (List.mem_zipIdx hn).2.1, ?_⟩
  rcases List.mem_cons.mp hstep with rfl | htoken
  · rfl
  · obtain ⟨_, _, rfl⟩ := List.mem_map.mp htoken
    rfl

/-- The items of a mapping string stand at lines that it has. -/
theorem line_lt_of_mem_items {cursor : Cursor} {mappings : String} {item : Item}
    (h : item ∈ (decodeFrom cursor mappings).items) :
    item.line.toNat < (Text.parts ';' mappings).length := by
  obtain ⟨step, hstep, hline⟩ := Decoder.exists_step_of_mem_items h
  obtain ⟨n, hn, hstep⟩ := exists_lt_of_mem_steps hstep
  rw [← hline, hstep, Word.toNat_saturate]
  omega

theorem decode_eq_decodeFrom (mappings : String) : decode mappings = decodeFrom {} mappings :=
  Decoder.decode_eq_outcome mappings

/-- A blank mapping string is read like a blank group: there is no item, and the next group
begins with the same values. -/
theorem outcome_fields (mappings : String) :
    let outcome := Decoder.outcome ((placesFrom 0 (Text.fields ';' mappings)).map Place.step) {}
    outcome.items = (decode mappings).items ∧ outcome.failure = (decode mappings).failure ∧
      outcome.progress.cursor.startLine = (decode mappings).progress.cursor.startLine := by
  by_cases hblank : mappings = ""
  · rw [hblank, Text.fields_empty]
    exact ⟨rfl, rfl, rfl⟩
  · rw [Decoder.decode_eq_outcome, steps_eq_places, places, Text.parts_eq_fields hblank]
    exact ⟨rfl, rfl, rfl⟩

/-- Groups that are counted from `first` yield what they yield as a text of their own, from
the same running values and `first` lines further down. -/
theorem items_fields (first : Nat) (mappings : String) (progress : Decoder.Progress) :
    (Decoder.outcome ((placesFrom first (Text.fields ';' mappings)).map Place.step)
        progress).items =
      (decodeFrom progress.cursor.startLine mappings).items.map (Item.later first) := by
  rw [step_placesFrom]
  by_cases hblank : mappings = ""
  · rw [hblank, Text.fields_empty]
    rfl
  · rw [decodeFrom, steps_eq_places, places, Text.parts_eq_fields hblank]
    -- the first step begins a group, which makes the generated columns equal
    cases hfields : Text.fields ';' mappings with
    | nil =>
      have hlength := Text.length_fields ';' mappings
      simp [hfields] at hlength
    | cons text rest =>
      rw [placesFrom_cons, List.map_cons, List.map_cons]
      exact Decoder.items_outcome_later first _ rfl

section Semicolon

variable (s t : String)

theorem parts_append :
    Text.parts ';' (s ++ ";" ++ t) = Text.fields ';' s ++ Text.fields ';' t := by
  have hne : s ++ ";" ++ t ≠ "" := by
    intro hempty
    have hlist := congrArg String.toList hempty
    simp at hlist
  rw [Text.parts_eq_fields hne]
  exact Text.fields_append ';' s t

theorem steps_append :
    steps (s ++ ";" ++ t) =
      (placesFrom 0 (Text.fields ';' s)).map Place.step ++
        (placesFrom (s.toList.count ';' + 1) (Text.fields ';' t)).map Place.step := by
  rw [steps_eq_places, places, parts_append, placesFrom_append, List.map_append,
    Text.length_fields, Nat.zero_add]

theorem items_append_of_failure (h : (decode s).failure ≠ none) :
    (decode (s ++ ";" ++ t)).items = (decode s).items := by
  obtain ⟨hitems, hfailure, -⟩ := outcome_fields s
  rw [Decoder.decode_eq_outcome, steps_append, Decoder.outcome_append, if_neg (hfailure ▸ h),
    hitems]

theorem items_append_of_failure_eq_none (h : (decode s).failure = none) :
    (decode (s ++ ";" ++ t)).items =
      (decode s).items ++
        (decodeBehind s t).items.map (Item.later (s.toList.count ';' + 1)) := by
  obtain ⟨hitems, hfailure, hcursor⟩ := outcome_fields s
  rw [h] at hfailure
  rw [Decoder.decode_eq_outcome, steps_append, Decoder.outcome_append, if_pos hfailure,
    Decoder.Outcome.items_prepend, ← Decoder.Outcome.items_of_failure_eq_none hfailure, hitems,
    items_fields, hcursor]
  rfl

variable {s t}

theorem later_lt_of_mem_items (h : (groups (s ++ ";" ++ t)).length ≤ 4294967296) {cursor : Cursor}
    {item : Item} (hitem : item ∈ (decodeFrom cursor t).items) :
    s.toList.count ';' + 1 + item.line.toNat < 4294967296 := by
  have hline := line_lt_of_mem_items hitem
  have hle : (Text.parts ';' t).length ≤ (Text.fields ';' t).length := by
    by_cases hblank : t = ""
    · rw [hblank]
      exact Nat.zero_le _
    · rw [Text.parts_eq_fields hblank]
  rw [length_groups, parts_append, List.length_append, Text.length_fields] at h
  omega

theorem line_lt_of_mem_decode {item : Item} (hitem : item ∈ (decode s).items) :
    item.line.toNat < s.toList.count ';' + 1 := by
  rw [decode_eq_decodeFrom] at hitem
  have hline := line_lt_of_mem_items hitem
  by_cases hblank : s = ""
  · rw [hblank, Text.parts_empty] at hline
    exact absurd hline (Nat.not_lt_zero _)
  · rwa [Text.parts_eq_fields hblank, Text.length_fields] at hline

/-- What a decoder yields for two mapping strings with a semicolon between them. If the first
one fails, it yields the same as for the first one alone. Otherwise it goes on with what the
second one yields from the running values at the end of the first, save for the generated
column, as many lines further down as the first one has groups; a blank text counts as a
group here. The items at the lines of the first one are its own in any case, so whatever
follows the semicolon has no influence on them. -/
theorem items_append (s t : String) :
    ((decode s).failure ≠ none → (decode (s ++ ";" ++ t)).items = (decode s).items) ∧
    ((decode s).failure = none →
      (decode (s ++ ";" ++ t)).items =
        (decode s).items ++
          (decodeBehind s t).items.map (Item.later (s.toList.count ';' + 1))) ∧
    ((groups (s ++ ";" ++ t)).length ≤ 4294967296 →
      (∀ item ∈ (decodeBehind s t).items,
        (Item.line (Item.later (s.toList.count ';' + 1) item)).toNat =
          s.toList.count ';' + 1 + (Item.line item).toNat) ∧
      (decode (s ++ ";" ++ t)).items.filter
          (fun item => (Item.line item).toNat < s.toList.count ';' + 1) = (decode s).items) := by
  refine ⟨items_append_of_failure s t, items_append_of_failure_eq_none s t, ?_⟩
  intro hgroups
  have hlater : ∀ item ∈ (decodeBehind s t).items,
      (Item.line (Item.later (s.toList.count ';' + 1) item)).toNat =
        s.toList.count ';' + 1 + (Item.line item).toNat := by
    intro item hitem
    rw [Item.line_later, Word.toNat_later (later_lt_of_mem_items hgroups hitem)]
  have hfirst : (decode s).items.filter
      (fun item => (Item.line item).toNat < s.toList.count ';' + 1) = (decode s).items := by
    rw [List.filter_eq_self]
    intro item hitem
    exact decide_eq_true (line_lt_of_mem_decode hitem)
  refine ⟨hlater, ?_⟩
  by_cases hfailure : (decode s).failure = none
  · -- what follows the semicolon stands behind the lines of the first text
    have hrest : ((decodeBehind s t).items.map (Item.later (s.toList.count ';' + 1))).filter
        (fun item => (Item.line item).toNat < s.toList.count ';' + 1) = [] := by
      rw [List.filter_eq_nil_iff]
      intro item hitem
      obtain ⟨before, hbefore, rfl⟩ := List.mem_map.mp hitem
      rw [decide_eq_true_eq, hlater before hbefore]
      omega
    rw [items_append_of_failure_eq_none s t hfailure, List.filter_append, hfirst, hrest,
      List.append_nil]
  · rw [items_append_of_failure s t hfailure, hfirst]

end Semicolon

end Mappings

end SourceMapIndex
