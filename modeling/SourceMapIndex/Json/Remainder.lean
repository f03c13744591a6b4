import SourceMapIndex.Json.Token

/-!
# Reading tokens shortens the text

Every scanner of the tokens of JSON leaves a part of its text, and a token takes at least
one character. Reading token by token therefore comes to an end.

## Main statements

- `Numeral.length_of_scan` — a numeral takes at least one character
- `Quoted.length_content` — a quoted string leaves no more than there was
- `Token.length_of_next?` — a token takes at least one character
-/

namespace SourceMapIndex

namespace Json

namespace Numeral

theorem length_of_scanDigits {text digits rest : List Char}
    (h : scanDigits text = .ok (digits, rest)) : rest.length < text.length := by
  unfold scanDigits at h
  split at h
  · simp at h
  · rename_i hne
    simp only [Except.ok.injEq, Prod.mk.injEq] at h
    have hsplit := congrArg List.length (List.takeWhile_append_dropWhile (p := Char.isDigit)
      (l := text))
    have hpos : 0 < (text.takeWhile Char.isDigit).length := List.length_pos_iff.mpr hne
    simp only [List.length_append] at hsplit
    rw [← h.2]
    omega

theorem length_of_scanWhole {text digits rest : List Char}
    (h : scanWhole text = .ok (digits, rest)) : rest.length < text.length := by
  unfold scanWhole at h
  split at h
  · simp at h
  · exact length_of_scanDigits h

theorem length_of_scanFraction {text rest : List Char} {fraction : Option (List Char)}
    (h : scanFraction text = .ok (fraction, rest)) : rest.length ≤ text.length := by
  unfold scanFraction at h
  split at h
  · rename_i after
    cases hdigits : scanDigits after with
    | error flaw => simp [hdigits, Except.map] at h
    | ok result =>
      obtain ⟨digits, left⟩ := result
      simp only [hdigits, Except.map, Except.ok.injEq, Prod.mk.injEq] at h
      have := length_of_scanDigits hdigits
      simp only [List.length_cons, ← h.2]
      omega
  · simp only [Except.ok.injEq, Prod.mk.injEq] at h
    simp [← h.2]

theorem length_of_scanMark {text mark rest : List Char} (h : scanMark text = some (mark, rest)) :
    rest.length < text.length := by
  unfold scanMark at h
  split at h
  · split at h
    · split at h <;> simp only [Option.some.injEq, Prod.mk.injEq] at h <;>
        simp only [List.length_cons, ← h.2] <;> omega
    · simp at h
  · simp at h

theorem length_of_scanExponent {text rest : List Char} {exponent : Option (List Char × List Char)}
    (h : scanExponent text = .ok (exponent, rest)) : rest.length ≤ text.length := by
  unfold scanExponent at h
  split at h
  · simp only [Except.ok.injEq, Prod.mk.injEq] at h
    simp [← h.2]
  · rename_i mark after hmark
    cases hdigits : scanDigits after with
    | error flaw => simp [hdigits, Except.map] at h
    | ok result =>
      obtain ⟨digits, left⟩ := result
      simp only [hdigits, Except.map, Except.ok.injEq, Prod.mk.injEq] at h
      have hrest := length_of_scanDigits hdigits
      have hafter := length_of_scanMark hmark
      rw [← h.2]
      omega

theorem length_of_scanUnsigned {negative : Bool} {text rest : List Char} {numeral : Numeral}
    (h : scanUnsigned negative text = .ok (numeral, rest)) : rest.length < text.length := by
  unfold scanUnsigned at h
  cases hwhole : scanWhole text with
  | error flaw => simp [hwhole, bind, Except.bind] at h
  | ok result =>
    obtain ⟨whole, afterWhole⟩ := result
    cases hfraction : scanFraction afterWhole with
    | error flaw => simp [hwhole, hfraction, bind, Except.bind] at h
    | ok result =>
      obtain ⟨fraction, afterFraction⟩ := result
      cases hexponent : scanExponent afterFraction with
      | error flaw => simp [hwhole, hfraction, hexponent, bind, Except.bind] at h
      | ok result =>
        simp only [hwhole, hfraction, hexponent, bind, Except.bind, pure, Except.pure,
          Except.ok.injEq, Prod.mk.injEq] at h
        obtain ⟨exponent, afterExponent⟩ := result
        have := length_of_scanWhole hwhole
        have := length_of_scanFraction hfraction
        have := length_of_scanExponent hexponent
        simp only [← h.2]
        omega

/-- A numeral takes at least one character. -/
theorem length_of_scan {text rest : List Char} {numeral : Numeral}
    (h : scan text = .ok (numeral, rest)) : rest.length < text.length := by
  unfold scan at h
  split at h
  · have := length_of_scanUnsigned h
    simp only [List.length_cons]
    omega
  · exact length_of_scanUnsigned h

end Numeral

namespace Quoted

theorem length_scan (before : List Piece) (text : List Char) :
    (scan before text).2.rest.length ≤ text.length := by
  fun_induction scan before text <;> simp_all [Ending.rest] <;> omega

/-- A quoted string leaves no more text than there was. -/
theorem length_content (text : List Char) : (content text).2.length ≤ text.length := by
  have := length_scan [] text
  simp only [content]
  split <;> exact this

end Quoted

namespace Token

theorem length_of_word {letters text rest : List Char} (h : word letters text = .ok rest) :
    rest.length ≤ text.length := by
  fun_induction word letters text <;> simp_all
  omega

theorem length_named (value : Draft) (letters text : List Char) :
    (named value letters text).2.length ≤ text.length := by
  unfold named
  split
  · exact length_of_word ‹_›
  · simp

theorem length_number (c : Char) (text : List Char) :
    (number (c :: text)).2.length ≤ text.length := by
  unfold number
  split
  · simp
  · rename_i hscan
    have := Numeral.length_of_scan hscan
    simp only [List.length_cons] at this
    split
    · exact Nat.le_of_lt_succ this
    · exact Nat.le_of_lt_succ this

theorem length_starting (c : Char) (text : List Char) :
    (starting c text).2.length ≤ text.length := by
  unfold starting
  split
  case h_7 => exact Quoted.length_content text
  case h_8 => exact length_named ..
  case h_9 => exact length_named ..
  case h_10 => exact length_named ..
  case h_11 =>
    split
    · exact length_number _ text
    · simp
  all_goals exact Nat.le_refl _

/-- A token takes at least one character. -/
theorem length_of_next? {text rest : List Char} {token : Token}
    (h : next? text = some (token, rest)) : rest.length < text.length := by
  unfold next? at h
  split at h
  · simp at h
  · rename_i c after hblank
    simp only [Option.some.injEq] at h
    have hafter : after.length < text.length := by
      have := (List.dropWhile_sublist (p := isBlank) (l := text)).length_le
      rw [hblank] at this
      exact this
    have hrest : rest.length ≤ after.length := by
      simpa [h] using length_starting c after
    omega

end Token

end Json

end SourceMapIndex
