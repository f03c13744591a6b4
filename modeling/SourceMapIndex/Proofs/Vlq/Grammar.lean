import Mathlib.Data.Nat.Digits.Defs
import SourceMapIndex.Vlq.Basic

/-!
# The grammar of variable-length quantities

A text is a row of integers exactly if it can be split into groups: at most six digits that
have the continuation bit, then one that has it not, with a number that fits in a word. The
integers are read off the numbers of the groups. No text can be split in two ways, since the
last digit of a group is the first one without the continuation bit.

## Main definitions

- `Vlq.IsGroup` — some digits are a group
- `Vlq.assembled` — the number of a group, from the payloads of its digits
- `Vlq.Splits` — a split of a text into groups

## Main results

- `Vlq.group_append`, `Vlq.exists_isGroup_of_group` — a group is read as its number
- `Vlq.decode_eq_ok_iff` — which texts are rows of integers, and of which integers
-/

namespace SourceMapIndex

namespace Vlq

/-- A character is a digit, and its continuation bit, the highest of six, is the given one. -/
def HasContinuation (bit : Bool) (c : Char) : Prop :=
  ∃ digit, Base64.value? c = some digit ∧ digit.testBit 5 = bit

/-- The payload of a digit: its lowest five bits. -/
def payload (c : Char) : Nat :=
  (Base64.value? c).getD 0 % 32

/-- Some digits are a group of at most `room` digits: all but the last say that another one
follows. -/
def IsGroup (room : Nat) (digits : List Char) : Prop :=
  ∃ more last, digits = more ++ [last] ∧ more.length < room ∧
    (∀ c ∈ more, HasContinuation true c) ∧ HasContinuation false last

/-- The number of a group, whose lowest five bits come first. -/
def assembled (digits : List Char) : Nat :=
  Nat.ofDigits 32 (digits.map payload)

/-- The integer of a group: half its number, with a minus sign if the number is odd. -/
def integerOf (digits : List Char) : Int :=
  if Odd (assembled digits) then -((assembled digits / 2 : Nat) : Int)
  else ((assembled digits / 2 : Nat) : Int)

/-- A text is split into groups of at most seven digits, whose numbers fit in a word. -/
structure Splits (text : List Char) (groups : List (List Char)) : Prop where
  text : text = groups.flatten
  isGroup : ∀ group ∈ groups, IsGroup 7 group
  word : ∀ group ∈ groups, assembled group ≤ 4294967295

/-! ### Digits -/

theorem testBit_five {digit : Nat} (h : digit < 64) : digit.testBit 5 = decide (32 ≤ digit) := by
  have hall : ∀ d : Fin 64, d.val.testBit 5 = decide (32 ≤ d.val) := by decide
  exact hall ⟨digit, h⟩

section Digit

variable {c : Char} {digit : Nat} (h : Base64.value? c = some digit)

include h

theorem hasContinuation_iff {bit : Bool} : HasContinuation bit c ↔ bit = decide (32 ≤ digit) := by
  simp only [HasContinuation, h, Option.some.injEq, exists_eq_left',
    testBit_five (Base64.value?_lt h), eq_comm]

theorem payload_of_value? : payload c = digit % 32 := by
  simp only [payload, h, Option.getD_some]

end Digit

theorem integerOf_eq_signed (digits : List Char) :
    integerOf digits = signed (assembled digits) := by
  simp only [integerOf, signed, Nat.odd_iff]

theorem assembled_cons (c : Char) (rest : List Char) :
    assembled (c :: rest) = payload c + 32 * assembled rest := by
  simp [assembled, Nat.ofDigits_cons]

/-! ### Groups -/

theorem not_isGroup_nil (room : Nat) : ¬IsGroup room [] := by
  rintro ⟨more, last, h, -⟩
  simp at h

theorem not_isGroup_zero (digits : List Char) : ¬IsGroup 0 digits := by
  rintro ⟨_, _, _, h, -⟩
  exact Nat.not_lt_zero _ h

/-- A group is its last digit alone, or a digit that another one follows and a group with less
room. -/
theorem isGroup_cons_iff {room : Nat} {c : Char} {rest : List Char} :
    IsGroup (room + 1) (c :: rest) ↔
      HasContinuation false c ∧ rest = [] ∨ HasContinuation true c ∧ IsGroup room rest := by
  constructor
  · rintro ⟨more, last, hdigits, hroom, hmore, hlast⟩
    cases more with
    | nil =>
      obtain ⟨rfl, rfl⟩ := List.cons.inj hdigits
      exact Or.inl ⟨hlast, rfl⟩
    | cons first others =>
      obtain ⟨rfl, rfl⟩ := List.cons.inj hdigits
      refine Or.inr ⟨hmore c List.mem_cons_self, others, last, rfl,
        Nat.lt_of_succ_lt_succ hroom, ?_, hlast⟩
      exact fun d hd => hmore d (List.mem_cons_of_mem c hd)
  · rintro (⟨hlast, rfl⟩ | ⟨hfirst, more, last, rfl, hroom, hmore, hlast⟩)
    · exact ⟨[], c, rfl, Nat.succ_pos room, by simp, hlast⟩
    · refine ⟨c :: more, last, rfl, Nat.succ_lt_succ hroom, ?_, hlast⟩
      rintro d (_ | ⟨_, hd⟩)
      · exact hfirst
      · exact hmore d hd

theorem group_cons_last {c : Char} {digit : Nat} (hvalue : Base64.value? c = some digit)
    (hlast : digit < 32) (room offset : Nat) (rest : List Char) :
    group (room + 1) offset (c :: rest) = .ok (digit, ⟨rest, offset + 1⟩) := by
  unfold group
  simp only [hvalue, hlast, if_true]

theorem group_cons_more {c : Char} {digit high : Nat} {room offset : Nat} {rest : List Char}
    {after : Reader} (hvalue : Base64.value? c = some digit) (hmore : ¬digit < 32)
    (hrest : group room (offset + 1) rest = .ok (high, after)) :
    group (room + 1) offset (c :: rest) = .ok (digit - 32 + 32 * high, after) := by
  unfold group
  simp only [hvalue, hmore, if_false, hrest]

/-- A group is read as its number, whatever follows it. -/
theorem group_append {room : Nat} {digits : List Char} (h : IsGroup room digits) (offset : Nat)
    (rest : List Char) :
    group room offset (digits ++ rest) =
      .ok (assembled digits, ⟨rest, offset + digits.length⟩) := by
  induction digits generalizing room offset with
  | nil => exact absurd h (not_isGroup_nil room)
  | cons c others ih =>
    cases room with
    | zero => exact absurd h (not_isGroup_zero _)
    | succ room =>
      rw [assembled_cons]
      rcases isGroup_cons_iff.mp h with ⟨hlast, rfl⟩ | ⟨hmore, hothers⟩
      · obtain ⟨digit, hvalue, -⟩ := id hlast
        have hlt : digit < 32 := by simpa [hasContinuation_iff hvalue] using hlast
        rw [payload_of_value? hvalue, Nat.mod_eq_of_lt hlt]
        exact group_cons_last hvalue hlt room offset rest
      · obtain ⟨digit, hvalue, -⟩ := id hmore
        have hle : 32 ≤ digit := by simpa [hasContinuation_iff hvalue] using hmore
        have hpayload : digit % 32 = digit - 32 := by
          have := Base64.value?_lt hvalue
          omega
        rw [List.cons_append, payload_of_value? hvalue, hpayload,
          group_cons_more hvalue (by omega) (ih hothers (offset + 1)), List.length_cons]
        simp only [Except.ok.injEq, Prod.mk.injEq, Reader.mk.injEq, true_and]
        omega

/-- Two texts that start with groups are equal only if the groups are. -/
theorem IsGroup.append_inj {room : Nat} {digits others rest left : List Char}
    (h : IsGroup room digits) (hothers : IsGroup room others)
    (hsame : digits ++ rest = others ++ left) : digits = others ∧ rest = left := by
  -- reading the group off leaves what follows it
  have hread := group_append h 0 rest
  rw [hsame, group_append hothers 0 left] at hread
  have hrest : left = rest := congrArg (Reader.rest ∘ Prod.snd) (Except.ok.inj hread)
  subst hrest
  exact ⟨List.append_cancel_right hsame, rfl⟩

/-- What is read as a number starts with a group of that number. -/
theorem exists_isGroup_of_group {room offset number : Nat} {text : List Char} {after : Reader}
    (h : group room offset text = .ok (number, after)) :
    ∃ digits, text = digits ++ after.rest ∧ IsGroup room digits ∧ assembled digits = number := by
  induction text generalizing room offset number after with
  | nil => simp [group] at h
  | cons c rest ih =>
    unfold group at h
    split at h
    · simp at h
    · simp at h
    · next digit room hvalue =>
      split at h
      · next hlast =>
        obtain ⟨rfl, rfl⟩ := Prod.mk.inj (Except.ok.inj h)
        refine ⟨[c], rfl, isGroup_cons_iff.mpr (Or.inl ⟨?_, rfl⟩), ?_⟩
        · simpa [hasContinuation_iff hvalue] using hlast
        · rw [assembled_cons, payload_of_value? hvalue, Nat.mod_eq_of_lt hlast]
          rfl
      · next hmore =>
        split at h
        · simp at h
        · next high left hgroup =>
          obtain ⟨rfl, rfl⟩ := Prod.mk.inj (Except.ok.inj h)
          obtain ⟨digits, rfl, hdigits, hhigh⟩ := ih hgroup
          refine ⟨c :: digits, rfl, isGroup_cons_iff.mpr (Or.inr ⟨?_, hdigits⟩), ?_⟩
          · simpa [hasContinuation_iff hvalue] using hmore
          · have := Base64.value?_lt hvalue
            rw [assembled_cons, payload_of_value? hvalue, hhigh]
            omega

/-! ### Rows of integers -/

namespace Splits

variable {digits rest : List Char} {groups others : List (List Char)}

theorem nil : Splits [] [] :=
  ⟨rfl, by simp, by simp⟩

theorem eq_nil (h : Splits [] groups) : groups = [] := by
  cases groups with
  | nil => rfl
  | cons digits others =>
    have hdigits : digits = [] := (List.append_eq_nil_iff.mp h.text.symm).1
    exact absurd (hdigits ▸ h.isGroup digits List.mem_cons_self) (not_isGroup_nil 7)

theorem cons (hdigits : IsGroup 7 digits) (hword : assembled digits ≤ 4294967295)
    (h : Splits rest groups) : Splits (digits ++ rest) (digits :: groups) where
  text := congrArg (digits ++ ·) h.text
  isGroup := List.forall_mem_cons.mpr ⟨hdigits, h.isGroup⟩
  word := List.forall_mem_cons.mpr ⟨hword, h.word⟩

theorem tail {text : List Char} (h : Splits text (digits :: groups)) :
    IsGroup 7 digits ∧ assembled digits ≤ 4294967295 ∧ text = digits ++ groups.flatten ∧
      Splits groups.flatten groups where
  left := h.isGroup digits List.mem_cons_self
  right := ⟨h.word digits List.mem_cons_self, h.text, rfl,
    (List.forall_mem_cons.mp h.isGroup).2, (List.forall_mem_cons.mp h.word).2⟩

end Splits

namespace Reader

variable {r after : Reader} {value : Int}

theorem integer_append {digits : List Char} (hdigits : IsGroup 7 digits)
    (hword : assembled digits ≤ 4294967295) (offset : Nat) (rest : List Char) :
    integer ⟨digits ++ rest, offset⟩ =
      .ok (integerOf digits, ⟨rest, offset + digits.length⟩) := by
  have hlt : assembled digits < 4294967296 := Nat.lt_succ_of_le hword
  have hgroup := group_append hdigits offset rest
  simp only [integer, maxDigits, hgroup, hlt, if_true, integerOf_eq_signed]

theorem exists_isGroup_of_integer (h : r.integer = .ok (value, after)) :
    ∃ digits, r.rest = digits ++ after.rest ∧ IsGroup 7 digits ∧
      assembled digits ≤ 4294967295 ∧ integerOf digits = value := by
  unfold integer at h
  split at h
  · simp at h
  · next number left hgroup =>
    split at h
    · next hlt =>
      obtain ⟨rfl, rfl⟩ := Prod.mk.inj (Except.ok.inj h)
      obtain ⟨digits, hrest, hdigits, rfl⟩ := exists_isGroup_of_group hgroup
      exact ⟨digits, hrest, hdigits, Nat.le_of_lt_succ hlt, integerOf_eq_signed digits⟩
    · simp at h

/-- The integers of a text are the next one, if there is one, and those of what follows it. -/
theorem integers_eq (r : Reader) :
    r.integers =
      match r.next with
      | (none, _) => .ok []
      | (some (.error fault), _) => .error fault
      | (some (.ok value), after) => after.integers.map (value :: ·) := by
  rw [integers]
  split
  · next hnext => rw [hnext]
  · next hnext => rw [hnext]
  · next value after hnext =>
    rw [hnext]
    simp only
    cases after.integers <;> rfl

/-- All that can come of asking for the next integer. -/
theorem next_cases (r : Reader) :
    r.rest = [] ∧ r.next = (none, r) ∨
      r.rest ≠ [] ∧
        ((∃ fault, r.integer = .error fault ∧ r.next = (some (.error fault), ⟨[], r.offset⟩)) ∨
          ∃ value after, r.integer = .ok (value, after) ∧ r.next = (some (.ok value), after)) := by
  unfold next
  cases hrest : r.rest with
  | nil => exact Or.inl ⟨rfl, rfl⟩
  | cons c rest =>
    refine Or.inr ⟨List.cons_ne_nil c rest, ?_⟩
    cases hread : r.integer with
    | error fault => exact Or.inl ⟨fault, rfl, rfl⟩
    | ok result => exact Or.inr ⟨result.1, result.2, rfl, rfl⟩

theorem rest_of_next_none (h : r.next = (none, after)) : r.rest = [] := by
  rcases r.next_cases with ⟨hrest, -⟩ | ⟨-, ⟨_, -, hnext⟩ | ⟨_, _, -, hnext⟩⟩
  · exact hrest
  · cases h.symm.trans hnext
  · cases h.symm.trans hnext

theorem integer_of_next_error {fault : Fault} (h : r.next = (some (.error fault), after)) :
    r.rest ≠ [] ∧ r.integer = .error fault := by
  rcases r.next_cases with ⟨-, hnext⟩ | ⟨hrest, ⟨_, hread, hnext⟩ | ⟨_, _, -, hnext⟩⟩
  · cases h.symm.trans hnext
  · cases h.symm.trans hnext
    exact ⟨hrest, hread⟩
  · cases h.symm.trans hnext

theorem integer_of_next_ok (h : r.next = (some (.ok value), after)) :
    r.integer = .ok (value, after) := by
  rcases r.next_cases with ⟨-, hnext⟩ | ⟨-, ⟨_, -, hnext⟩ | ⟨_, _, hread, hnext⟩⟩
  · cases h.symm.trans hnext
  · cases h.symm.trans hnext
  · cases h.symm.trans hnext
    exact hread

theorem next_append {digits : List Char} (hdigits : IsGroup 7 digits)
    (hword : assembled digits ≤ 4294967295) (offset : Nat) (rest : List Char) :
    next ⟨digits ++ rest, offset⟩ =
      (some (.ok (integerOf digits)), ⟨rest, offset + digits.length⟩) := by
  have hinteger := integer_append hdigits hword offset rest
  cases digits with
  | nil => exact absurd hdigits (not_isGroup_nil 7)
  | cons c others => simp only [next, List.cons_append] at hinteger ⊢; simp only [hinteger]

/-- Groups are read one after the other, whatever comes of the text behind them. -/
theorem integers_append {digits : List Char} {groups : List (List Char)}
    (h : Splits digits groups) (offset : Nat) (rest : List Char) :
    integers ⟨digits ++ rest, offset⟩ =
      (integers ⟨rest, offset + digits.length⟩).map (groups.map integerOf ++ ·) := by
  induction groups generalizing digits offset with
  | nil =>
    obtain rfl : digits = [] := h.text
    cases hrest : integers ⟨rest, offset⟩ <;> simp [hrest, Except.map]
  | cons group others ih =>
    obtain ⟨hgroup, hword, rfl, hothers⟩ := h.tail
    have hnext := next_append hgroup hword offset (others.flatten ++ rest)
    rw [List.append_assoc, integers_eq, hnext]
    simp only
    rw [ih hothers, List.length_append, Nat.add_assoc]
    cases integers ⟨rest, offset + (group.length + others.flatten.length)⟩ <;> rfl

/-- The integers of a text that is split into groups are those of the groups. -/
theorem integers_of_splits {groups : List (List Char)} (h : Splits r.rest groups) :
    r.integers = .ok (groups.map integerOf) := by
  have hblank : integers ⟨[], r.offset + r.rest.length⟩ = .ok [] := by
    rw [integers_eq]
    rfl
  have hread := integers_append h r.offset []
  rw [hblank, List.append_nil] at hread
  rw [hread, Except.map, List.append_nil]

/-- A text with integers is split into the groups that they were read from. -/
theorem exists_splits_of_integers {values : List Int} (h : r.integers = .ok values) :
    ∃ groups, Splits r.rest groups ∧ values = groups.map integerOf := by
  -- over the rest of the text, which every integer shortens
  fun_induction integers r generalizing values with
  | case1 r after hnext =>
    cases h
    exact ⟨[], rest_of_next_none hnext ▸ .nil, rfl⟩
  | case2 r fault after hnext => simp at h
  | case3 r value after hnext fault hafter ih => simp at h
  | case4 r value after hnext others hafter ih =>
    cases h
    obtain ⟨groups, hgroups, rfl⟩ := ih hafter
    obtain ⟨digits, hrest, hdigits, hword, rfl⟩ := exists_isGroup_of_integer (integer_of_next_ok hnext)
    exact ⟨digits :: groups, hrest ▸ hgroups.cons hdigits hword, rfl⟩

end Reader

theorem exists_splits_of_decode {token : String} {values : List Int}
    (h : decode token = .ok values) :
    ∃ groups, Splits token.toList groups ∧ values = groups.map integerOf :=
  Reader.exists_splits_of_integers h

theorem eq_empty_of_decode {token : String} (h : decode token = .ok []) : token = "" := by
  obtain ⟨groups, hgroups, hvalues⟩ := exists_splits_of_decode h
  rw [List.map_eq_nil_iff.mp hvalues.symm] at hgroups
  exact String.toList_eq_nil_iff.mp hgroups.text

/-- A text is split into groups in one way at most. -/
theorem Splits.unique {text : List Char} {groups others : List (List Char)}
    (h : Splits text groups) (hothers : Splits text others) : groups = others := by
  induction groups generalizing text others with
  | nil =>
    obtain rfl : text = [] := h.text
    exact hothers.eq_nil.symm
  | cons digits rest ih =>
    obtain ⟨hdigits, _, htext, hrest⟩ := h.tail
    cases others with
    | nil =>
      obtain rfl : text = [] := hothers.text
      exact h.eq_nil
    | cons first left =>
      obtain ⟨hfirst, _, hother, hleft⟩ := hothers.tail
      obtain ⟨rfl, hflatten⟩ := hdigits.append_inj hfirst (htext.symm.trans hother)
      rw [ih hrest (hflatten ▸ hleft)]

/-- A text is a row of integers exactly if it splits into groups, and the integers are those of
the groups in their order. It splits in one way at most; the empty text splits into no groups,
and a text that does not split has a fault. -/
theorem decode_eq_ok_iff (text : String) :
    (∀ values, decode text = .ok values ↔
      ∃ groups, Splits text.toList groups ∧ values = groups.map integerOf) ∧
    (∀ groups others, Splits text.toList groups → Splits text.toList others → groups = others) ∧
    (Splits text.toList [] ↔ text = "") ∧
    ((¬∃ groups, Splits text.toList groups) ↔ ∃ fault, decode text = .error fault) := by
  have hvalues : ∀ values, decode text = .ok values ↔
      ∃ groups, Splits text.toList groups ∧ values = groups.map integerOf := by
    intro values
    constructor
    · exact Reader.exists_splits_of_integers
    · rintro ⟨groups, hgroups, rfl⟩
      exact Reader.integers_of_splits hgroups
  refine ⟨hvalues, fun groups others h hothers => h.unique hothers, ?_, ?_⟩
  · rw [← String.toList_eq_nil_iff]
    exact ⟨Splits.text, fun h => h ▸ .nil⟩
  · cases hdecode : decode text with
    | error fault =>
      refine ⟨fun _ => ⟨fault, rfl⟩, ?_⟩
      rintro - ⟨groups, hgroups⟩
      rw [(hvalues _).mpr ⟨groups, hgroups, rfl⟩] at hdecode
      cases hdecode
    | ok values =>
      obtain ⟨groups, hgroups, -⟩ := (hvalues values).mp hdecode
      simp only [reduceCtorEq, exists_false, iff_false, not_not]
      exact ⟨groups, hgroups⟩

end Vlq

end SourceMapIndex
