import Mathlib
import SourceMapIndex.Proofs.Vlq.Stops

/-!
# Which fault a text has, and where

A text that is not a row of integers goes wrong in the first group that is not well formed,
and there is one such place. What stands there decides which fault the text has; places are
counted in bytes, and a character that is no digit always starts at one. A fault that was
found by a character does not go away when the text goes on.

## Main definitions

- `Vlq.Breaks` — where the first group stands that is not well formed
- `Vlq.CharAt` — a character starts at an offset in bytes
- `Fault.Explains` — what a fault says of the text there

## Main results

- `Breaks.unique` — a text goes wrong in one place
- `Breaks.explains_iff` — bytes and characters tell the same fault
- `Vlq.decode_eq_error_iff` — which fault a text has, and what becomes of it in a longer text
-/

namespace SourceMapIndex

namespace Vlq

/-! ### The place of a fault -/

/-- A text goes wrong behind some groups: these are well formed, and what is left is not blank
and does not start with another group whose number fits in a word. -/
structure Breaks (text : List Char) (groups : List (List Char)) (left : List Char) : Prop where
  text : text = groups.flatten ++ left
  groups : Splits groups.flatten groups
  nonempty : left ≠ []
  broken : ∀ digits rest, left = digits ++ rest → IsGroup 7 digits →
    4294967295 < assembled digits

namespace Breaks

variable {text left : List Char} {groups : List (List Char)}

theorem of_integer_error {r : Reader} {fault : Fault} (hrest : r.rest ≠ [])
    (h : r.integer = .error fault) : Breaks r.rest [] r.rest := by
  refine ⟨rfl, .nil, hrest, ?_⟩
  intro digits rest htext hdigits
  by_contra hword
  have hread := Reader.integer_append hdigits (by omega) r.offset rest
  rw [← htext, h] at hread
  cases hread

theorem cons {digits : List Char} (hdigits : IsGroup 7 digits)
    (hword : assembled digits ≤ 4294967295) (h : Breaks text groups left) :
    Breaks (digits ++ text) (digits :: groups) left where
  text := by rw [h.text, List.flatten_cons, List.append_assoc]
  groups := h.groups.cons hdigits hword
  nonempty := h.nonempty
  broken := h.broken

/-- What is left is not read as an integer. -/
theorem exists_integer_eq_error (h : Breaks text groups left) (offset : Nat) :
    ∃ fault, Reader.integer ⟨left, offset⟩ = .error fault := by
  cases hread : Reader.integer ⟨left, offset⟩ with
  | error fault => exact ⟨fault, rfl⟩
  | ok result =>
    obtain ⟨digits, hleft, hdigits, hword, -⟩ := Reader.exists_isGroup_of_integer hread
    have := h.broken digits result.2.rest hleft hdigits
    omega

/-- The fault of a text is that of the first group that is not well formed. -/
theorem integers_eq_error_iff (h : Breaks text groups left) {offset : Nat} {fault : Fault} :
    Reader.integers ⟨text, offset⟩ = .error fault ↔
      fault.Stops 7 (offset + groups.flatten.length) left ∨
        fault = .overflow ∧ TooLarge left := by
  obtain ⟨found, hfound⟩ := h.exists_integer_eq_error (offset + groups.flatten.length)
  have hread : Reader.integers ⟨text, offset⟩ = .error found := by
    rw [h.text, Reader.integers_append h.groups,
      Reader.integers_of_integer_error h.nonempty hfound]
    rfl
  constructor
  · intro hsame
    cases hread.symm.trans hsame
    exact Reader.integer_eq_error_iff.mp hfound
  · intro hcause
    have hother : Reader.integer ⟨left, offset + groups.flatten.length⟩ = .error fault :=
      Reader.integer_eq_error_iff.mpr hcause
    cases hfound.symm.trans hother
    exact hread

end Breaks

/-- A text with a fault goes wrong somewhere. -/
theorem exists_breaks_of_integers {r : Reader} {fault : Fault} (h : r.integers = .error fault) :
    ∃ groups left, Breaks r.rest groups left := by
  -- over the rest of the text, which every integer shortens
  fun_induction Reader.integers r with
  | case1 r after hnext => cases h
  | case2 r found after hnext =>
    obtain ⟨hrest, hread⟩ := Reader.integer_of_next_error hnext
    exact ⟨[], r.rest, Breaks.of_integer_error hrest hread⟩
  | case3 r value after hnext found hafter ih =>
    cases h
    obtain ⟨groups, left, hbreaks⟩ := ih hafter
    obtain ⟨digits, hrest, hdigits, hword, -⟩ :=
      Reader.exists_isGroup_of_integer (Reader.integer_of_next_ok hnext)
    rw [hrest]
    exact ⟨digits :: groups, left, hbreaks.cons hdigits hword⟩
  | case4 r value after hnext others hafter ih => cases h

/-! ### Places in bytes -/

/-- A character starts at an offset in bytes. -/
def CharAt (token : String) (offset : Nat) (c : Char) : Prop :=
  String.Pos.Raw.IsValid token ⟨offset⟩ ∧ String.Pos.Raw.get? token ⟨offset⟩ = some c

theorem charAt_utf8Len_iff {token : String} {before after : List Char} {c : Char}
    (h : token.toList = before ++ after) :
    CharAt token (String.utf8Len before) c ↔ after.head? = some c := by
  have htoken : token = String.ofList (before ++ after) := by rw [← h, String.ofList_toList]
  have hvalid : String.Pos.Raw.IsValid token ⟨String.utf8Len before⟩ := by
    rw [String.Pos.Raw.isValid_iff_exists_append]
    refine ⟨String.ofList before, String.ofList after, ?_, ?_⟩
    · rw [htoken, String.ofList_append]
    · rw [String.rawEndPos_ofList]
  rw [CharAt, and_iff_right hvalid, htoken, String.get?_of_valid]

/-- As far as digits go on, characters are bytes. -/
theorem utf8Len_take {text : List Char} {k : Nat} (hk : k ≤ pending text) :
    String.utf8Len (text.take k) = k := by
  have hdigits : ∀ c ∈ text.take k, ∃ value, Base64.value? c = some value := by
    intro c hc
    have hpending : c ∈ text.take (pending text) := (List.take_prefix_take_left hk).subset hc
    exact (continues_of_mem_take_pending c hpending).exists_value?
  rw [utf8Len_eq_length hdigits, List.length_take_of_le (hk.trans (pending_le_length text))]

section Left

variable {token : String} {before left : List Char} (h : token.toList = before ++ left)

include h

theorem charAt_add_iff {k : Nat} {c : Char} (hk : k ≤ pending left) :
    CharAt token (String.utf8Len before + k) c ↔ left[k]? = some c := by
  have hsplit : token.toList = before ++ left.take k ++ left.drop k := by
    rw [List.append_assoc, List.take_append_drop, h]
  have hbytes : String.utf8Len (before ++ left.take k) = String.utf8Len before + k := by
    rw [String.utf8Len_append, utf8Len_take hk]
  rw [← hbytes, charAt_utf8Len_iff hsplit, List.head?_drop]

theorem utf8ByteSize_eq_iff :
    token.utf8ByteSize = String.utf8Len before + pending left ↔ left.length = pending left := by
  have hleft : String.utf8Len left =
      pending left + String.utf8Len (left.drop (pending left)) := by
    conv_lhs => rw [← List.take_append_drop (pending left) left]
    rw [String.utf8Len_append, utf8Len_take le_rfl]
  have hblank : String.utf8Len (left.drop (pending left)) = 0 ↔ left.length ≤ pending left := by
    rw [String.utf8Len_eq_zero, List.drop_eq_nil_iff]
  have hle := pending_le_length left
  rw [← String.utf8Len_toList, h, String.utf8Len_append, hleft]
  omega

end Left

/-- What a fault says of a text that is well formed for `start` bytes, and of what is left of it
behind them: where the digits stop that say another one follows, and what stands there. -/
def Fault.Explains (token : String) (start : Nat) (left : List Char) : Fault → Prop
  | .unterminated =>
    token.utf8ByteSize = start + pending left ∧ 1 ≤ pending left ∧ pending left ≤ 7
  | .invalidChar c offset =>
    offset = start + pending left ∧ pending left ≤ 7 ∧ CharAt token offset c ∧
      Base64.value? c = none
  | .overflow =>
    (7 ≤ pending left ∧ ∃ c, CharAt token (start + 7) c ∧ (Base64.value? c).isSome = true) ∨
      pending left = 6 ∧ (∃ last, CharAt token (start + 6) last ∧ HasContinuation false last) ∧
        4294967295 < assembled (left.take 7)

namespace Breaks

variable {token : String} {left : List Char} {groups : List (List Char)}

/-- What the faults say of a text is what ends the first group that is not well formed. -/
theorem explains_iff (h : Breaks token.toList groups left) {fault : Fault} :
    fault.Explains token (String.utf8Len groups.flatten) left ↔
      fault.Stops 7 groups.flatten.length left ∨ fault = .overflow ∧ TooLarge left := by
  have hbytes := utf8Len_eq_length h.groups.exists_value?
  cases fault with
  | unterminated =>
    have hpos : 0 < left.length := List.length_pos_of_ne_nil h.nonempty
    simp only [Fault.Explains, Fault.Stops, utf8ByteSize_eq_iff h.text, reduceCtorEq, false_and,
      or_false]
    omega
  | invalidChar c offset =>
    simp only [Fault.Explains, Fault.Stops, reduceCtorEq, false_and, or_false, hbytes]
    apply and_congr_right
    rintro rfl
    rw [← hbytes, charAt_add_iff h.text le_rfl]
  | overflow =>
    simp only [Fault.Explains, Fault.Stops, TooLarge, true_and]
    apply or_congr
    · apply and_congr_right
      intro hseven
      simp only [charAt_add_iff h.text hseven]
    · apply and_congr_right
      intro hsix
      simp only [charAt_add_iff h.text hsix.ge]

theorem decode_eq_error_iff_explains (h : Breaks token.toList groups left) {fault : Fault} :
    decode token = .error fault ↔ fault.Explains token (String.utf8Len groups.flatten) left := by
  have hread : Reader.integers ⟨token.toList, 0⟩ = .error fault ↔ _ := h.integers_eq_error_iff
  rw [Nat.zero_add, ← h.explains_iff] at hread
  exact hread

end Breaks

namespace Breaks

variable {text left right : List Char} {groups others : List (List Char)}

theorem uncons {digits : List Char} (h : Breaks text (digits :: groups) left) :
    IsGroup 7 digits ∧ assembled digits ≤ 4294967295 ∧ text = digits ++ (groups.flatten ++ left) ∧
      Breaks (groups.flatten ++ left) groups left := by
  obtain ⟨hdigits, hword, -, hgroups⟩ := h.groups.tail
  refine ⟨hdigits, hword, ?_, rfl, hgroups, h.nonempty, h.broken⟩
  rw [h.text, List.flatten_cons, List.append_assoc]

/-- A text goes wrong in one place. -/
theorem unique (h : Breaks text groups left) (hothers : Breaks text others right) :
    groups = others ∧ left = right := by
  induction groups generalizing text others with
  | nil =>
    cases others with
    | nil => exact ⟨rfl, h.text.symm.trans hothers.text⟩
    | cons first rest =>
      obtain ⟨hfirst, hword, htext, -⟩ := hothers.uncons
      have := h.broken first _ (h.text.symm.trans htext) hfirst
      omega
  | cons digits rest ih =>
    obtain ⟨hdigits, hword, htext, hrest⟩ := h.uncons
    cases others with
    | nil =>
      have := hothers.broken digits _ (hothers.text.symm.trans htext) hdigits
      omega
    | cons first others =>
      obtain ⟨hfirst, -, hother, hleft⟩ := hothers.uncons
      obtain ⟨rfl, hsame⟩ := hdigits.append_inj hfirst (htext.symm.trans hother)
      obtain ⟨rfl, rfl⟩ := ih hrest (hsame ▸ hleft)
      exact ⟨rfl, rfl⟩

end Breaks

/-! ### Longer texts -/

/-- Where a text stands makes no difference but to the offset of its fault. -/
theorem Reader.integers_at (text : List Char) (offset : Nat) :
    integers ⟨text, offset⟩ = (integers ⟨text, 0⟩).mapError (Fault.later offset) := by
  cases hread : integers ⟨text, 0⟩ with
  | ok values =>
    obtain ⟨groups, hgroups, rfl⟩ := exists_splits_of_integers hread
    exact integers_of_splits hgroups
  | error fault =>
    obtain ⟨groups, left, hbreaks⟩ := exists_breaks_of_integers hread
    change _ = Except.error (fault.later offset)
    rw [hbreaks.integers_eq_error_iff, Nat.zero_add] at hread
    rw [hbreaks.integers_eq_error_iff]
    rcases hread with hstops | ⟨rfl, hlarge⟩
    · exact Or.inl (hstops.later offset)
    · exact Or.inr ⟨rfl, hlarge⟩

theorem decode_append_of_error {token : String} {fault : Fault} (h : decode token = .error fault)
    (hfault : fault ≠ .unterminated) (more : String) : decode (token ++ more) = .error fault := by
  obtain ⟨groups, left, hbreaks⟩ := exists_breaks_of_integers h
  have hcause := hbreaks.integers_eq_error_iff.mp h
  have hlonger : Reader.integer ⟨left ++ more.toList, 0 + groups.flatten.length⟩ =
      .error fault := by
    rw [Reader.integer_eq_error_iff]
    rcases hcause with hstops | ⟨hoverflow, hlarge⟩
    · exact Or.inl (hstops.append hfault more.toList)
    · exact Or.inr ⟨hoverflow, hlarge.append more.toList⟩
  have hnonempty : left ++ more.toList ≠ [] := by simp [hbreaks.nonempty]
  have htext : token.toList = groups.flatten ++ left := hbreaks.text
  rw [decode, Reader.ofString, String.toList_append, htext, List.append_assoc,
    Reader.integers_append hbreaks.groups,
    Reader.integers_of_integer_error hnonempty hlonger]
  rfl

theorem decode_append_of_ok {token : String} {values : List Int} (h : decode token = .ok values)
    (more : String) :
    decode (token ++ more) =
      match decode more with
      | .ok others => .ok (values ++ others)
      | .error fault => .error (fault.later token.utf8ByteSize) := by
  obtain ⟨groups, hgroups, rfl⟩ := exists_splits_of_decode h
  have hbytes : token.utf8ByteSize = 0 + token.toList.length := by
    rw [← String.utf8Len_toList, utf8Len_eq_length hgroups.exists_value?, Nat.zero_add]
  rw [decode, Reader.ofString, String.toList_append, Reader.integers_append hgroups,
    Reader.integers_at, ← hbytes]
  change Except.map _ ((decode more).mapError _) = _
  cases decode more <;> rfl

/-- A text has a fault if it goes wrong in a place, and there is one such place at most: a group
behind well-formed ones that is not well formed itself. What stands there leaves one fault to
explain it, which is the fault of the text. If it was found by a character, no continuation of
the text changes it. A text without a fault passes its values on to any continuation, and
counts the offsets of the continuation's fault from its own end. -/
theorem decode_eq_error_iff (token : String) :
    ((∃ fault, decode token = .error fault) ↔ ∃ groups left, Breaks token.toList groups left) ∧
    (∀ groups left others right, Breaks token.toList groups left →
      Breaks token.toList others right → groups = others ∧ left = right) ∧
    (∀ groups left, Breaks token.toList groups left →
      (∃ fault : Fault, fault.Explains token (String.utf8Len groups.flatten) left) ∧
      ∀ fault : Fault, decode token = .error fault ↔
        fault.Explains token (String.utf8Len groups.flatten) left) ∧
    (∀ fault, decode token = .error fault → fault ≠ .unterminated →
      ∀ more, decode (token ++ more) = .error fault) ∧
    (∀ values, decode token = .ok values → ∀ more, decode (token ++ more) =
      match decode more with
      | .ok others => .ok (values ++ others)
      | .error fault => .error (fault.later token.utf8ByteSize)) := by
  have hfault : ∀ groups left, Breaks token.toList groups left →
      ∃ fault, decode token = .error fault := by
    intro groups left h
    obtain ⟨fault, hread⟩ := h.exists_integer_eq_error (0 + groups.flatten.length)
    exact ⟨fault, h.integers_eq_error_iff.mpr (Reader.integer_eq_error_iff.mp hread)⟩
  refine ⟨⟨?_, ?_⟩, ?_, ?_, ?_, ?_⟩
  · rintro ⟨fault, h⟩
    exact exists_breaks_of_integers h
  · rintro ⟨groups, left, h⟩
    exact hfault groups left h
  · exact fun groups left others right h hothers => h.unique hothers
  · intro groups left h
    refine ⟨?_, fun fault => h.decode_eq_error_iff_explains⟩
    obtain ⟨fault, hread⟩ := hfault groups left h
    exact ⟨fault, h.decode_eq_error_iff_explains.mp hread⟩
  · exact fun fault => decode_append_of_error
  · exact fun values => decode_append_of_ok

/-- A letter that is no digit stands where a group goes on, and takes two bytes. Neither what
stands before it nor what is added behind it makes a difference to the fault. -/
theorem decode_eq_error_iff_stray :
    Breaks "Agéc".toList [['A']] ['g', 'é', 'c'] ∧
      decode "Agéc" = .error (.invalidChar 'é' 2) ∧
      decode ("Agéc" ++ "!") = .error (.invalidChar 'é' 2) ∧
      decode ("ggA" ++ "Agéc") = .error (.invalidChar 'é' 5) := by
  have hstray : Reader.integer ⟨['g', 'é', 'c'], 1⟩ = .error (.invalidChar 'é' 2) := by cbv
  have hzero : IsGroup 7 ['A'] ∧ assembled ['A'] = 0 := by
    obtain ⟨digits, htext, hdigits, hnumber⟩ :=
      exists_isGroup_of_group (show group 7 0 ['A'] = .ok (0, ⟨[], 1⟩) by cbv)
    rw [List.append_nil] at htext
    exact htext ▸ ⟨hdigits, hnumber⟩
  have hbreaks : Breaks "Agéc".toList [['A']] ['g', 'é', 'c'] :=
    (Breaks.of_integer_error (List.cons_ne_nil _ _) hstray).cons hzero.1 (by omega)
  have hread : decode "Agéc" = .error (.invalidChar 'é' 2) := by cbv
  have hbefore : decode "ggA" = .ok [0] := by cbv
  obtain ⟨-, -, -, hlonger, -⟩ := decode_eq_error_iff "Agéc"
  obtain ⟨-, -, -, -, hbehind⟩ := decode_eq_error_iff "ggA"
  refine ⟨hbreaks, hread, hlonger _ hread (by simp) "!", ?_⟩
  rw [hbehind _ hbefore, hread]
  rfl

end Vlq

end SourceMapIndex
