import Mathlib
import SourceMapIndex.Proofs.Vlq.Shortest

/-!
# How the reading of a group stops

A group that is not well formed is known by the digits at its start that say another one
follows: how many they are, and what stands behind them. There the text ends, or a character
is no digit, or a digit stands that the group has no room for, or it closes a group whose
number does not fit in a word. Text that is added behind changes nothing about the last three.

## Main definitions

- `Vlq.pending` — the digits at the start of a text that say another one follows
- `Fault.Stops` — which fault ends the reading of a group
- `Vlq.TooLarge` — a group has a number that does not fit in a word

## Main results

- `Vlq.group_eq_error_iff`, `Reader.integer_eq_error_iff` — why a group is not read
- `Fault.Stops.append`, `TooLarge.append` — faults that stay when the text goes on
-/

namespace SourceMapIndex

namespace Vlq

instance (bit : Bool) (c : Char) : Decidable (HasContinuation bit c) :=
  decidable_of_iff (∃ digit ∈ Base64.value? c, digit.testBit 5 = bit) Iff.rfl

/-! ### The digits before the end of a group -/

/-- How many digits at the start of a text say that another one follows. -/
def pending (text : List Char) : Nat :=
  (text.takeWhile fun c => HasContinuation true c).length

section Pending

variable {c : Char} {rest : List Char}

theorem pending_cons_of_more (h : HasContinuation true c) :
    pending (c :: rest) = pending rest + 1 := by
  simp [pending, h]

theorem pending_cons_of_not_more (h : ¬HasContinuation true c) : pending (c :: rest) = 0 := by
  simp [pending, h]

theorem pending_append {more : List Char} (h : ∀ d ∈ more, HasContinuation true d) :
    pending (more ++ rest) = more.length + pending rest := by
  have hmore : ∀ d ∈ more, decide (HasContinuation true d) = true :=
    fun d hd => decide_eq_true (h d hd)
  rw [pending, List.takeWhile_append_of_pos hmore, List.length_append, pending]

theorem pending_le_length (text : List Char) : pending text ≤ text.length :=
  (List.takeWhile_prefix _).length_le

theorem continues_of_mem_take_pending {text : List Char} :
    ∀ d ∈ text.take (pending text), HasContinuation true d := by
  intro d hd
  rw [pending, ← List.prefix_iff_eq_take.mp (List.takeWhile_prefix _)] at hd
  have hcontinues := List.mem_takeWhile_imp hd
  exact of_decide_eq_true hcontinues

end Pending

theorem IsGroup.pending_append {room : Nat} {digits : List Char} (h : IsGroup room digits)
    (rest : List Char) :
    pending (digits ++ rest) + 1 = digits.length ∧
      ∃ last, (digits ++ rest)[pending (digits ++ rest)]? = some last ∧
        HasContinuation false last := by
  obtain ⟨more, last, rfl, -, hmore, hlast⟩ := h
  have hnot : ¬HasContinuation true last := by
    obtain ⟨digit, hvalue, hbit⟩ := hlast
    rw [hasContinuation_iff hvalue, ← testBit_five (Base64.value?_lt hvalue), hbit]
    decide
  rw [List.append_assoc, List.singleton_append, Vlq.pending_append hmore,
    pending_cons_of_not_more hnot]
  simp [hlast]

theorem isGroup_take {text : List Char} {last : Char} {room : Nat} (hroom : pending text < room)
    (hlast : text[pending text]? = some last) (hend : HasContinuation false last) :
    IsGroup room (text.take (pending text + 1)) := by
  have hle := pending_le_length text
  refine ⟨text.take (pending text), last, ?_, ?_, continues_of_mem_take_pending, hend⟩
  · rw [List.take_add_one, hlast, Option.toList_some]
  · rw [List.length_take]
    omega

/-! ### The fault of a group -/

/-- Which fault ends the reading of a group that starts a text at `offset` and may have `room`
digits: behind digits that say another one follows the text ends, or a character is no digit,
or there is a digit too many. -/
def Fault.Stops (room offset : Nat) (text : List Char) : Fault → Prop
  | .unterminated => text.length = pending text ∧ pending text ≤ room
  | .invalidChar c place =>
    place = offset + pending text ∧ pending text ≤ room ∧ text[pending text]? = some c ∧
      Base64.value? c = none
  | .overflow =>
    room ≤ pending text ∧ ∃ c, text[room]? = some c ∧ (Base64.value? c).isSome = true

namespace Fault

variable {fault : Fault} {room offset : Nat} {c : Char} {rest : List Char}

theorem stops_cons_of_stray (hvalue : Base64.value? c = none) :
    fault.Stops room offset (c :: rest) ↔ fault = .invalidChar c offset := by
  have hnot : ¬HasContinuation true c := by simp [HasContinuation, hvalue]
  cases fault with
  | unterminated => simp [Stops, pending_cons_of_not_more hnot]
  | invalidChar d place =>
    simp only [Stops, pending_cons_of_not_more hnot]
    grind
  | overflow =>
    simp only [Stops, pending_cons_of_not_more hnot]
    grind

theorem not_stops_cons_of_last {digit : Nat} (hvalue : Base64.value? c = some digit)
    (hlast : digit < 32) : ¬fault.Stops (room + 1) offset (c :: rest) := by
  have hnot : ¬HasContinuation true c := by simpa [hasContinuation_iff hvalue] using hlast
  cases fault with
  | unterminated => simp [Stops, pending_cons_of_not_more hnot]
  | invalidChar d place =>
    simp only [Stops, pending_cons_of_not_more hnot]
    grind
  | overflow => simp [Stops, pending_cons_of_not_more hnot]

theorem stops_zero {digit : Nat} (hvalue : Base64.value? c = some digit) :
    fault.Stops 0 offset (c :: rest) ↔ fault = .overflow := by
  cases fault with
  | unterminated =>
    simp only [Stops, List.length_cons, reduceCtorEq, iff_false]
    omega
  | invalidChar d place =>
    simp only [Stops, Nat.le_zero, reduceCtorEq, iff_false]
    rintro ⟨-, hzero, hd, hnone⟩
    rw [hzero, List.getElem?_cons_zero, Option.some.injEq] at hd
    rw [← hd, hvalue] at hnone
    cases hnone
  | overflow => simp [Stops, hvalue]

theorem stops_cons_of_more {digit : Nat} (hvalue : Base64.value? c = some digit)
    (hmore : ¬digit < 32) :
    fault.Stops (room + 1) offset (c :: rest) ↔ fault.Stops room (offset + 1) rest := by
  have hcontinues : HasContinuation true c := by simpa [hasContinuation_iff hvalue] using hmore
  cases fault <;> simp only [Stops, pending_cons_of_more hcontinues, List.length_cons,
    List.getElem?_cons_succ, Nat.add_le_add_iff_right, Nat.add_right_cancel_iff]
  rw [Nat.add_right_comm, Nat.add_assoc]

end Fault

/-- A group is not read for the fault that ends it, and for no other. -/
theorem group_eq_error_iff {room offset : Nat} {text : List Char} {fault : Fault} :
    group room offset text = .error fault ↔ fault.Stops room offset text := by
  induction text generalizing room offset with
  | nil => cases fault <;> simp [group, Fault.Stops, pending]
  | cons c rest ih =>
    unfold group
    cases hvalue : Base64.value? c with
    | none =>
      rw [Fault.stops_cons_of_stray hvalue]
      simp only [Except.error.injEq, eq_comm]
    | some digit =>
      cases room with
      | zero =>
        rw [Fault.stops_zero hvalue]
        simp only [Except.error.injEq, eq_comm]
      | succ room =>
        by_cases hlast : digit < 32
        · simp only [hlast, if_true, reduceCtorEq, Fault.not_stops_cons_of_last hvalue hlast]
        · -- the group goes on with room for one digit less
          rw [Fault.stops_cons_of_more hvalue hlast, ← ih]
          simp only [hlast, if_false]
          cases group room (offset + 1) rest <;> simp

/-- A group of seven digits has a number that does not fit in a word. -/
def TooLarge (text : List Char) : Prop :=
  pending text = 6 ∧ (∃ last, text[6]? = some last ∧ HasContinuation false last) ∧
    4294967295 < assembled (text.take 7)

/-- A number of thirty-three bits takes seven digits. -/
theorem length_eq_seven {digits : List Char} (hdigits : IsGroup 7 digits)
    (h : 4294967295 < assembled digits) : digits.length = 7 := by
  have hlt := assembled_lt digits
  have hle := hdigits.length_le
  by_contra hne
  have hsix : 32 ^ digits.length ≤ 32 ^ 6 := Nat.pow_le_pow_right (by decide) (by omega)
  omega

theorem tooLarge_append {digits : List Char} (hdigits : IsGroup 7 digits)
    (h : 4294967295 < assembled digits) (rest : List Char) : TooLarge (digits ++ rest) := by
  have hlength := length_eq_seven hdigits h
  obtain ⟨hpending, last, hlast, hend⟩ := hdigits.pending_append rest
  have hsix : pending (digits ++ rest) = 6 := by omega
  rw [hsix] at hlast
  refine ⟨hsix, ⟨last, hlast, hend⟩, ?_⟩
  rwa [← hlength, List.take_left]

namespace Reader

/-- An integer is not read if its group is ended by a fault, or if it is too large; the fault is
that of the group, or an overflow. -/
theorem integer_eq_error_iff {r : Reader} {fault : Fault} :
    r.integer = .error fault ↔
      fault.Stops 7 r.offset r.rest ∨ fault = .overflow ∧ TooLarge r.rest := by
  rw [← group_eq_error_iff]
  constructor
  · intro h
    unfold integer at h
    split at h
    · next hgroup => exact Or.inl (Except.error.inj h ▸ hgroup)
    · next number after hgroup =>
      split at h
      · cases h
      · next hlarge =>
        obtain ⟨digits, hrest, hdigits, rfl⟩ := exists_isGroup_of_group hgroup
        rw [hrest]
        exact Or.inr ⟨(Except.error.inj h).symm, tooLarge_append hdigits (by omega) after.rest⟩
  · rintro (hgroup | ⟨rfl, hpending, ⟨last, hlast, hend⟩, hlarge⟩)
    · simp only [integer, maxDigits, hgroup]
    · rw [← hpending] at hlast
      have hdigits : IsGroup 7 _ := isGroup_take (by omega) hlast hend
      rw [hpending] at hdigits
      have hgroup := group_append hdigits r.offset (r.rest.drop 7)
      rw [List.take_append_drop] at hgroup
      have hnot : ¬assembled (r.rest.take 7) < 4294967296 := by omega
      simp only [integer, maxDigits, hgroup, hnot, if_false]

theorem integers_of_integer_error {r : Reader} {fault : Fault} (hrest : r.rest ≠ [])
    (h : r.integer = .error fault) : r.integers = .error fault := by
  rw [integers_eq]
  rcases r.next_cases with ⟨hblank, -⟩ | ⟨-, ⟨found, hread, hnext⟩ | ⟨_, _, hread, -⟩⟩
  · exact absurd hblank hrest
  · cases h.symm.trans hread
    rw [hnext]
  · cases h.symm.trans hread

end Reader

/-! ### Groups in longer texts -/

/-- The same fault, `count` bytes further on. -/
def Fault.later (count : Nat) : Fault → Fault
  | .invalidChar c offset => .invalidChar c (count + offset)
  | .unterminated => .unterminated
  | .overflow => .overflow

theorem pending_append_of_lt {text : List Char} (h : pending text < text.length)
    (rest : List Char) : pending (text ++ rest) = pending text := by
  unfold pending at h ⊢
  rw [List.takeWhile_append, if_neg (Nat.ne_of_lt h)]

theorem pending_le_pending_append (text rest : List Char) :
    pending text ≤ pending (text ++ rest) := by
  unfold pending
  rw [List.takeWhile_append]
  split
  · next hall =>
    rw [List.length_append, hall]
    omega
  · exact le_rfl

/-- A fault that was found by a character stays when the text goes on. -/
theorem Fault.Stops.append {fault : Fault} {room offset : Nat} {text : List Char}
    (h : fault.Stops room offset text) (hfault : fault ≠ .unterminated) (rest : List Char) :
    fault.Stops room offset (text ++ rest) := by
  cases fault with
  | unterminated => contradiction
  | invalidChar c place =>
    obtain ⟨hplace, hroom, hc, hvalue⟩ := h
    have hlt : pending text < text.length := (List.getElem?_eq_some_iff.mp hc).1
    simp only [Stops, pending_append_of_lt hlt, List.getElem?_append_left hlt]
    exact ⟨hplace, hroom, hc, hvalue⟩
  | overflow =>
    obtain ⟨hroom, c, hc, hvalue⟩ := h
    have hlt : room < text.length := (List.getElem?_eq_some_iff.mp hc).1
    refine ⟨hroom.trans (pending_le_pending_append text rest), c, ?_, hvalue⟩
    rw [List.getElem?_append_left hlt, hc]

theorem TooLarge.append {text : List Char} (h : TooLarge text) (rest : List Char) :
    TooLarge (text ++ rest) := by
  obtain ⟨hsix, ⟨last, hlast, hend⟩, hlarge⟩ := h
  have hlt : 6 < text.length := (List.getElem?_eq_some_iff.mp hlast).1
  refine ⟨?_, ⟨last, ?_, hend⟩, ?_⟩
  · rw [pending_append_of_lt (hsix ▸ hlt), hsix]
  · rw [List.getElem?_append_left hlt, hlast]
  · rwa [List.take_append_of_le_length hlt]

theorem Fault.Stops.later {fault : Fault} {room offset : Nat} {text : List Char}
    (h : fault.Stops room offset text) (count : Nat) :
    (fault.later count).Stops room (count + offset) text := by
  cases fault with
  | unterminated => exact h
  | invalidChar c place => exact ⟨by rw [h.1, Nat.add_assoc], h.2⟩
  | overflow => exact h

end Vlq

end SourceMapIndex
