import Std.Data.String.ToNat
import SourceMapIndex.Json.Compact
import SourceMapIndex.Proofs.Json.Grammar

/-!
# Numerals in a text

A numeral is scanned as its parts. Nothing in a row of digits tells where it ends, so it must be
followed by a mark or a blank, as it is inside a value. Integers of sixty-four bits are known by
their values.

## Main definitions

- `Numeral.AtMark` — a text that does not go on with a numeral
- `Numeral.ofInt` — the numeral of an integer
- `Numeral.draft` — what a numeral is read as
- `Number.IsExact` — a number that is known by its value

## Main results

- `Numeral.scan_text` — a numeral is scanned as its parts
- `Numeral.number_ofInt` — the numeral of an integer has this integer as its number
-/

namespace SourceMapIndex

namespace Json

namespace Numeral

/-- A text is at its end or goes on with what may stand behind a value, a mark or a blank, so
that no digit, point or exponent follows. -/
def AtMark (text : List Char) : Prop :=
  ∀ c ∈ text.head?, c ∈ [',', ']', '\x7d', ' ', '\n', '\r', '\t']

theorem atMark_cons {c : Char} (h : c = ',' ∨ c = ']' ∨ c = '\x7d') (text : List Char) :
    AtMark (c :: text) := by
  intro d hd
  rw [← Option.some.inj hd]
  rcases h with rfl | rfl | rfl <;> simp

/-- A text does not go on with a digit. -/
def NoDigit (text : List Char) : Prop :=
  ∀ c ∈ text.head?, c.isDigit = false

/-- The fraction of a numeral as it is written. -/
def fractionText : Option (List Char) → List Char
  | none => []
  | some digits => '.' :: digits

/-- The exponent of a numeral as it is written. -/
def exponentText : Option (List Char × List Char) → List Char
  | none => []
  | some (mark, digits) => mark ++ digits

theorem toList_text (numeral : Numeral) :
    numeral.text.toList = (if numeral.negative then ['-'] else []) ++
      (numeral.whole ++ (fractionText numeral.fraction ++ exponentText numeral.exponent)) := by
  obtain ⟨negative, whole, fraction, exponent⟩ := numeral
  cases fraction <;> cases exponent <;> simp [text, fractionText, exponentText]

/-! ### The parts of a numeral -/

section Scan

variable {digits rest : List Char}

theorem AtMark.head?_ne (hrest : AtMark rest) :
    ∀ c ∈ rest.head?, c.isDigit = false ∧ c ≠ '.' ∧ c ≠ 'e' ∧ c ≠ 'E' := by
  intro c hc
  have hmark := hrest c hc
  simp only [List.mem_cons, List.not_mem_nil, or_false] at hmark
  rcases hmark with rfl | rfl | rfl | rfl | rfl | rfl | rfl <;> decide

theorem AtMark.noDigit (hrest : AtMark rest) : NoDigit rest :=
  fun c hc => (hrest.head?_ne c hc).1

theorem IsDigits.exists_cons (h : IsDigits digits) :
    ∃ c more, digits = c :: more ∧ c.isDigit = true ∧ c ≠ '+' ∧ c ≠ '-' := by
  obtain ⟨c, more, rfl⟩ := List.exists_cons_of_ne_nil h.nonempty
  have hc : c.isDigit = true := h.isDigit c List.mem_cons_self
  refine ⟨c, more, rfl, hc, ?_, ?_⟩ <;> rintro rfl <;> cases hc

theorem scanDigits_append (h : IsDigits digits) (hrest : NoDigit rest) :
    scanDigits (digits ++ rest) = .ok (digits, rest) := by
  have hstop : rest.takeWhile Char.isDigit = [] ∧ rest.dropWhile Char.isDigit = rest := by
    cases rest with
    | nil => exact ⟨rfl, rfl⟩
    | cons c text => simp [hrest c rfl]
  unfold scanDigits
  rw [List.takeWhile_append_of_pos h.isDigit, List.dropWhile_append_of_pos h.isDigit, hstop.1,
    hstop.2, List.append_nil]
  obtain ⟨c, more, rfl, -⟩ := h.exists_cons
  rfl

theorem scanWhole_append {numeral : Numeral} (h : numeral.IsWellFormed) (hrest : NoDigit rest) :
    scanWhole (numeral.whole ++ rest) = .ok (numeral.whole, rest) := by
  unfold scanWhole
  rw [scanDigits_append h.whole hrest]
  split
  · next hzero =>
    -- a zero with a digit after it is not how a number is written
    obtain ⟨hwhole, -⟩ := Prod.mk.inj (Except.ok.inj hzero)
    have hleading := h.leading (by rw [hwhole, List.head?_cons])
    rw [hwhole] at hleading
    cases hleading
  · rfl

theorem scanFraction_append {fraction : Option (List Char)}
    (h : ∀ digits ∈ fraction, IsDigits digits) (hrest : NoDigit rest)
    (hpoint : '.' ∉ rest.head?) :
    scanFraction (fractionText fraction ++ rest) = .ok (fraction, rest) := by
  cases fraction with
  | none =>
    cases rest with
    | nil => rfl
    | cons c text =>
      have hne : c ≠ '.' := fun hc => hpoint (congrArg some hc)
      simp [fractionText, scanFraction, hne]
  | some digits =>
    simp only [fractionText, List.cons_append, scanFraction, scanDigits_append (h digits rfl) hrest]
    rfl

/-- Behind the mark of an exponent comes a digit, which is no sign. -/
theorem scanMark_append {mark : List Char} (hmark : mark ∈ marks) (h : IsDigits digits) :
    scanMark (mark ++ (digits ++ rest)) = some (mark, digits ++ rest) := by
  obtain ⟨c, more, rfl, -, hplus, hminus⟩ := h.exists_cons
  simp only [marks, List.mem_cons, List.not_mem_nil, or_false] at hmark
  rcases hmark with rfl | rfl | rfl | rfl | rfl | rfl <;> simp [scanMark, hplus, hminus]

theorem scanExponent_append {exponent : Option (List Char × List Char)}
    (hmark : ∀ part ∈ exponent, part.1 ∈ marks) (h : ∀ part ∈ exponent, IsDigits part.2)
    (hrest : AtMark rest) :
    scanExponent (exponentText exponent ++ rest) = .ok (exponent, rest) := by
  cases exponent with
  | none =>
    cases rest with
    | nil => rfl
    | cons c text =>
      obtain ⟨-, -, hlower, hupper⟩ := hrest.head?_ne c rfl
      simp [exponentText, scanExponent, scanMark, hlower, hupper]
  | some part =>
    obtain ⟨mark, digits⟩ := part
    simp only [exponentText, List.append_assoc, scanExponent,
      scanMark_append (hmark _ rfl) (h _ rfl), scanDigits_append (h _ rfl) hrest.noDigit]
    rfl

end Scan

/-- What stands behind the digits of a numeral: an exponent, or what the numeral stands before. -/
theorem head?_exponentText {exponent : Option (List Char × List Char)} {rest : List Char}
    (hmark : ∀ part ∈ exponent, part.1 ∈ marks) (hrest : AtMark rest) :
    ∀ c ∈ (exponentText exponent ++ rest).head?, c.isDigit = false ∧ c ≠ '.' := by
  intro c hc
  cases exponent with
  | none =>
    obtain ⟨hdigit, hpoint, -⟩ := hrest.head?_ne c hc
    exact ⟨hdigit, hpoint⟩
  | some part =>
    have hpart := hmark part rfl
    simp only [marks, List.mem_cons, List.not_mem_nil, or_false] at hpart
    obtain ⟨mark, digits⟩ := part
    rcases hpart with rfl | rfl | rfl | rfl | rfl | rfl <;>
      simp only [exponentText, List.cons_append, List.head?_cons, Option.mem_some_iff] at hc <;>
      subst hc <;> decide

theorem noDigit_fractionText (fraction : Option (List Char)) {rest : List Char}
    (hrest : NoDigit rest) : NoDigit (fractionText fraction ++ rest) := by
  cases fraction with
  | none => exact hrest
  | some digits =>
    intro c hc
    rw [← Option.some.inj hc]
    rfl

/-- A numeral is scanned as its parts, in front of a mark or a blank. -/
theorem scan_text {numeral : Numeral} (h : numeral.IsWellFormed) {rest : List Char}
    (hrest : AtMark rest) : scan (numeral.text.toList ++ rest) = .ok (numeral, rest) := by
  have hexponent := scanExponent_append h.mark h.exponent hrest
  have hhead := head?_exponentText h.mark hrest
  have hfraction := scanFraction_append h.fraction (fun c hc => (hhead c hc).1)
    fun hpoint => (hhead '.' hpoint).2 rfl
  have hwhole := scanWhole_append h (noDigit_fractionText numeral.fraction
    fun c hc => (hhead c hc).1)
  have hunsigned : scanUnsigned numeral.negative (numeral.whole ++
      (fractionText numeral.fraction ++ (exponentText numeral.exponent ++ rest))) =
      .ok (numeral, rest) := by
    simp only [scanUnsigned, hwhole, hfraction, hexponent, bind, Except.bind]
    rfl
  rw [toList_text, List.append_assoc, List.append_assoc, List.append_assoc]
  cases hsign : numeral.negative with
  | true =>
    rw [hsign] at hunsigned
    exact hunsigned
  | false =>
    obtain ⟨c, more, hcons, -, -, hminus⟩ := h.whole.exists_cons
    rw [hsign, hcons] at hunsigned
    rw [if_neg (by simp), List.nil_append, hcons, List.cons_append, scan]
    · exact hunsigned
    · simpa using hminus

/-! ### Integers -/

/-- Decimal digits have no zero in front, unless they are a zero. -/
theorem head?_toDigits {n : Nat} (h : 0 < n) : (Nat.toDigits 10 n).head? ≠ some '0' := by
  induction n using Nat.base_induction 10 (by decide) with
  | single m hm =>
    rw [Nat.toDigits_of_lt_base hm]
    intro hzero
    have hvalue := Nat.toNat_digitChar_of_lt_ten hm
    rw [Option.some.inj hzero] at hvalue
    have hcode : '0'.toNat = 48 := rfl
    omega
  | digit m k hk hm ih =>
    rw [← Nat.toDigits_append_toDigits (by decide) hm hk, List.head?_append,
      Option.or_of_isSome (by simp)]
    exact ih hm

/-- The numeral of an integer. -/
def ofInt (value : Int) : Numeral where
  negative := decide (value < 0)
  whole := Nat.toDigits 10 value.natAbs

theorem isWellFormed_ofInt (value : Int) : (ofInt value).IsWellFormed where
  whole := ⟨Nat.toDigits_ne_nil, fun _ hc => Nat.isDigit_of_mem_toDigits (by decide) (by decide) hc⟩
  leading := by
    intro hzero
    rcases Nat.eq_zero_or_pos value.natAbs with h | h
    · simp [ofInt, h]
    · exact absurd hzero (head?_toDigits h)
  fraction := nofun
  mark := nofun
  exponent := nofun

theorem toList_text_ofInt (value : Int) :
    (ofInt value).text.toList = (Number.text (.int value)).toList := by
  cases value with
  | ofNat n =>
    have htext : (Number.text (.int (Int.ofNat n))).toList = Nat.toDigits 10 n := Nat.toList_repr
    rw [toList_text, htext]
    simp [ofInt, fractionText, exponentText]
  | negSucc n =>
    rw [toList_text]
    simp [ofInt, fractionText, exponentText, Number.text, toString, Int.repr]

theorem ofDigits_toDigits (n : Nat) : ofDigits (Nat.toDigits 10 n) = n := by
  have hdigits : ofDigits (Nat.toDigits 10 n) = Nat.ofDigitChars 10 (Nat.toDigits 10 n) 0 := by
    simp only [ofDigits, digitValue, Nat.ofDigitChars, Nat.mul_comm]
  rw [hdigits, Nat.ofDigitChars_ten_toDigits]

end Numeral

/-- A number that is known by its value: an integer of sixty-four bits. -/
def Number.IsExact : Number → Prop
  | .int value => -9223372036854775808 ≤ value ∧ value < 18446744073709551616
  | .real _ => False

namespace Numeral

/-- The draft of a numeral, which has a flaw if its number is out of range. -/
def draft (numeral : Numeral) : Draft :=
  match numeral.number with
  | .ok value => .number value
  | .error flaw => .flawed flaw

theorem number_ofInt {value : Int} (h : (Number.int value).IsExact) :
    (ofInt value).number = .ok (.int value) := by
  obtain ⟨hlow, hhigh⟩ := h
  have hinteger : (ofInt value).integer? = some value := by
    simp only [integer?, ofInt, ofDigits_toDigits, decide_eq_true_eq]
    split
    · rw [if_pos (by omega)]
      congr 1
      omega
    · rw [if_pos (by omega)]
      congr 1
      omega
  simp only [number, hinteger]

end Numeral

end Json

end SourceMapIndex
