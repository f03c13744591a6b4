import SourceMapIndex.Proofs.Mappings.Sums
import SourceMapIndex.Proofs.Vlq.Faults

/-!
# Three readers of a token

A token can be asked for one integer after the other, decoded into the list of its integers, or
parsed as a segment. The three go through the same groups: the answers are the integers of the
list, and the segment has them as its fields. If one group is not well formed, all of them end
with its fault, but only the first one gives the integers before it.

## Main definitions

- `Vlq.Reader.answer` — what a text answers when it is asked for the `n`-th time
- `Vlq.Reader.Answers` — all the answers of a text, however often it is asked

## Main results

- `Vlq.Reader.answers_of_splits` — the answers of a text that splits into groups
- `Vlq.Breaks.answers` — the answers of a text that goes wrong
- `Segment.readers_agree` — answers, decoded integers and parsed segment of every token
-/

namespace SourceMapIndex

namespace Vlq

namespace Reader

/-- A text after it has been asked `n` times for its next integer. -/
def after (r : Reader) : Nat → Reader
  | 0 => r
  | n + 1 => r.next.2.after n

/-- What a text answers when it is asked for the `n`-th time, counted from zero. -/
def answer (r : Reader) (n : Nat) : Option (Except Fault Int) :=
  (r.after n).next.1

/-- A text answers with some items in their order, and then with nothing for ever. -/
def Answers (r : Reader) (items : List (Except Fault Int)) : Prop :=
  ∀ n, r.answer n = items[n]?

variable {r next : Reader} {items : List (Except Fault Int)}

theorem answers_nil (h : r.rest = []) : r.Answers [] := by
  have hnext : r.next = (none, r) := by
    rcases r.next_cases with ⟨-, hnext⟩ | ⟨hrest, -⟩
    · exact hnext
    · exact absurd h hrest
  have hafter : ∀ n, r.after n = r := by
    intro n
    induction n with
    | zero => rfl
    | succ n ih => rw [after, hnext, ih]
  intro n
  rw [answer, hafter, hnext, List.getElem?_nil]

theorem Answers.cons {item : Except Fault Int} (hnext : r.next = (some item, next))
    (h : next.Answers items) : r.Answers (item :: items) := by
  rintro (_ | n)
  · rw [answer, after, hnext, List.getElem?_cons_zero]
  · rw [answer, after, hnext, List.getElem?_cons_succ]
    exact h n

/-- A fault is answered once. -/
theorem answers_of_integer_error {fault : Fault} (hrest : r.rest ≠ [])
    (h : r.integer = .error fault) : r.Answers [.error fault] := by
  rcases r.next_cases with ⟨hblank, -⟩ | ⟨-, ⟨found, hread, hnext⟩ | ⟨value, behind, hread, -⟩⟩
  · exact absurd hblank hrest
  · cases h.symm.trans hread
    exact Answers.cons hnext (answers_nil rfl)
  · cases h.symm.trans hread

/-- Groups are answered one after the other, and then what stands behind them. -/
theorem answers_append {digits rest : List Char} {groups : List (List Char)}
    (h : Splits digits groups) {offset : Nat}
    (hrest : Answers ⟨rest, offset + digits.length⟩ items) :
    Answers ⟨digits ++ rest, offset⟩ ((groups.map integerOf).map .ok ++ items) := by
  induction groups generalizing digits offset with
  | nil =>
    obtain rfl : digits = [] := h.text
    exact hrest
  | cons group others ih =>
    obtain ⟨hgroup, hword, rfl, hothers⟩ := h.tail
    rw [List.length_append, ← Nat.add_assoc] at hrest
    rw [List.append_assoc]
    exact Answers.cons (next_append hgroup hword offset _) (ih hothers hrest)

theorem answers_of_splits {groups : List (List Char)} (h : Splits r.rest groups) :
    r.Answers ((groups.map integerOf).map .ok) := by
  have hblank : Answers ⟨[], r.offset + r.rest.length⟩ [] := answers_nil rfl
  have hanswers := answers_append h hblank
  rwa [List.append_nil, List.append_nil] at hanswers

end Reader

theorem answers_of_decode {token : String} {values : List Int} (h : decode token = .ok values) :
    (Reader.ofString token).Answers (values.map .ok) := by
  obtain ⟨groups, hgroups, rfl⟩ := exists_splits_of_decode h
  exact Reader.answers_of_splits hgroups

/-- The groups before the one that is not well formed are answered, then the fault. -/
theorem Breaks.answers {token : String} {groups : List (List Char)} {left : List Char}
    {fault : Fault} (h : Breaks token.toList groups left) (hfault : decode token = .error fault) :
    (Reader.ofString token).Answers ((groups.map integerOf).map .ok ++ [.error fault]) := by
  have hread : Reader.integer ⟨left, 0 + groups.flatten.length⟩ = .error fault :=
    Reader.integer_eq_error_iff.mpr (h.integers_eq_error_iff.mp hfault)
  rw [Reader.ofString, h.text]
  exact Reader.answers_append h.groups (Reader.answers_of_integer_error h.nonempty hread)

end Vlq

namespace Segment

open Vlq (Breaks Reader integerOf)

/-- The number of integers decides the shape of the segment. -/
theorem parse_of_decode (token : String) (values : List Int) :
    Vlq.decode token = .ok values →
      parse token =
        match values with
        | [column] => .ok (.minimal column)
        | [column, source, line, origin] => .ok (.full column source line origin)
        | [column, source, line, origin, name] => .ok (.named column source line origin name)
        | _ => .error (.fieldCount token values.length) := by
  intro h
  rw [parse_eq, h]
  match values with
  | [] | [_] | [_, _] | [_, _, _] | [_, _, _, _] | [_, _, _, _, _] => rfl
  | _ :: _ :: _ :: _ :: _ :: _ :: _ => rfl

/-- A token that decodes answers with its integers, and is parsed as the segment with these
fields if they are one, four or five, and refused with their number otherwise. A token with a
fault goes wrong behind some groups: it answers with their integers and the fault, and is
refused with the fault, however many integers come before it. -/
theorem readers_agree (token : String) :
    (∀ values, Vlq.decode token = .ok values →
      (Reader.ofString token).Answers (values.map .ok) ∧
      parse token =
        match values with
        | [column] => .ok (.minimal column)
        | [column, source, line, origin] => .ok (.full column source line origin)
        | [column, source, line, origin, name] => .ok (.named column source line origin name)
        | _ => .error (.fieldCount token values.length)) ∧
    (∀ fault, Vlq.decode token = .error fault →
      (∃ groups left, Breaks token.toList groups left ∧
        (Reader.ofString token).Answers ((groups.map integerOf).map .ok ++ [.error fault])) ∧
      parse token = .error (.malformedSegment token fault)) := by
  refine ⟨fun values h => ⟨Vlq.answers_of_decode h, parse_of_decode token values h⟩,
    fun fault h => ⟨?_, ?_⟩⟩
  · obtain ⟨groups, left, hbreaks⟩ := Vlq.exists_breaks_of_integers h
    exact ⟨groups, left, hbreaks, hbreaks.answers h⟩
  · simp only [parse_eq, h]

/-- Six integers are one too many for a segment, but a fault behind them comes first. -/
theorem readers_agree_six_integers :
    (Reader.ofString "ACEGIK").Answers [.ok 0, .ok 1, .ok 2, .ok 3, .ok 4, .ok 5] ∧
      parse "ACEGIK" = .error (.fieldCount "ACEGIK" 6) ∧
      parse "ACEGIKg!" = .error (.malformedSegment "ACEGIKg!" (.invalidChar '!' 7)) := by
  have hread : Vlq.decode "ACEGIK" = .ok [0, 1, 2, 3, 4, 5] := by cbv
  have hfault : Vlq.decode "ACEGIKg!" = .error (.invalidChar '!' 7) := by cbv
  obtain ⟨hanswers, hparse⟩ := (readers_agree "ACEGIK").1 _ hread
  exact ⟨hanswers, hparse, ((readers_agree "ACEGIKg!").2 _ hfault).2⟩

end Segment

end SourceMapIndex
