import Mathlib.Data.List.GetD
import SourceMapIndex.Mappings.Segment
import SourceMapIndex.Proofs.Vlq.Grammar

/-!
# The fields of a token, counted and collected

A token is read with five slots and a counter. This file shows what they hold behind any number
of fields, and that they leave the segment that the list of all fields leaves: the token may as
well be decoded first and classified by the length of what comes of it.

## Main results

- `Vlq.Reader.foldl_eq` — passing integers on one by one, and folding over their list
- `Segment.Tally.holds_foldl_push` — the slots and the counter behind any fields
- `Segment.parse_eq` — a token is read as the segment with the fields that it decodes to
-/

namespace SourceMapIndex

namespace Vlq

namespace Reader

/-- The integers that are passed on are those of the list, in its order. -/
theorem foldl_eq {σ : Type} (step : σ → Int → σ) (state : σ) (r : Reader) :
    r.foldl step state = r.integers.map (·.foldl step state) := by
  -- over the rest of the text, which every integer shortens
  fun_induction foldl step state r with
  | case1 state r after hnext => rw [integers_eq, hnext]; rfl
  | case2 state r fault after hnext => rw [integers_eq, hnext]; rfl
  | case3 state r value after hnext ih =>
    rw [ih, integers_eq r, hnext]
    simp only
    cases after.integers <;> rfl

end Reader

end Vlq

namespace Segment

namespace Tally

/-- The fields have been counted, and the first five stand in the slots. -/
structure Holds (tally : Tally) (fields : List Int) : Prop where
  count : tally.count = fields.length
  slots : ∀ i, (h : i < 5) → tally.slots[i] = fields.getD i 0

variable {tally : Tally} {fields : List Int}

theorem holds_nil : Holds {} [] where
  count := rfl
  slots i h := by simp

theorem Holds.push (h : tally.Holds fields) (value : Int) :
    (tally.push value).Holds (fields ++ [value]) where
  count := by rw [Tally.push, h.count, List.length_append, List.length_singleton]
  slots i hi := by
    simp only [Tally.push, Vector.getElem_setIfInBounds, h.count, h.slots i hi]
    -- the slot of the counter is the one that is written to, if there is one
    rcases Nat.lt_trichotomy i fields.length with hlt | rfl | hgt
    · rw [if_neg (Nat.ne_of_gt hlt), List.getD_append _ _ _ _ hlt]
    · simp
    · rw [if_neg (Nat.ne_of_lt hgt), List.getD_eq_default _ _ (Nat.le_of_lt hgt),
        List.getD_eq_default]
      simpa using Nat.succ_le_of_lt hgt

theorem Holds.foldl_push (h : tally.Holds fields) (more : List Int) :
    (more.foldl Tally.push tally).Holds (fields ++ more) := by
  induction more generalizing tally fields with
  | nil => simpa using h
  | cons value more ih =>
    rw [List.foldl_cons, List.append_cons]
    exact ih (h.push value)

theorem holds_foldl_push (fields : List Int) : (fields.foldl Tally.push {}).Holds fields :=
  holds_nil.foldl_push fields

/-- What the slots and the counter leave is the segment with the fields. -/
theorem Holds.segment?_eq (h : tally.Holds fields) : tally.segment? = ofFields? fields := by
  have hslots := h.slots
  simp only [segment?, h.count, hslots]
  match fields with
  | [] | [_] | [_, _] | [_, _, _] | [_, _, _, _] | [_, _, _, _, _] => rfl
  | _ :: _ :: _ :: _ :: _ :: _ :: _ => rfl

end Tally

/-- A token is decoded, and its fields make the segment if they are one, four or five. -/
theorem parse_eq (token : String) :
    parse token =
      match Vlq.decode token with
      | .error fault => .error (.malformedSegment token fault)
      | .ok fields =>
        match ofFields? fields with
        | some segment => .ok segment
        | none => .error (.fieldCount token fields.length) := by
  rw [parse, Vlq.Reader.foldl_eq, Vlq.decode]
  cases (Vlq.Reader.ofString token).integers with
  | error fault => rfl
  | ok fields =>
    have hholds := Tally.holds_foldl_push fields
    cases hsegment : ofFields? fields <;>
      simp only [Except.map, hholds.segment?_eq, hholds.count, hsegment]

end Segment

end SourceMapIndex
