import SourceMapIndex.Json.Token
import SourceMapIndex.Proofs.Json.Numerals
import SourceMapIndex.Proofs.Json.Strings

/-!
# Tokens of a text

The next token of a text that starts with a mark, with a string in one of its spellings, or with
a numeral. Blanks in front of it make no difference.

## Main results

- `Token.next?_writesString` — a string
- `Token.exists_next?_of_isString` — anything that may stand between quotes
- `Token.next?_text` — a numeral
- `Token.next?_number` — an integer
- `Token.next?_blank` — blanks
-/

namespace SourceMapIndex

namespace Json

namespace Token

open Numeral (AtMark)

theorem next?_beginArray (rest : List Char) : next? ('[' :: rest) = some (.beginArray, rest) :=
  rfl

theorem next?_endArray (rest : List Char) : next? (']' :: rest) = some (.endArray, rest) :=
  rfl

theorem next?_beginObject (rest : List Char) :
    next? ('\x7b' :: rest) = some (.beginObject, rest) :=
  rfl

theorem next?_endObject (rest : List Char) : next? ('\x7d' :: rest) = some (.endObject, rest) :=
  rfl

theorem next?_colon (rest : List Char) : next? (':' :: rest) = some (.colon, rest) :=
  rfl

theorem next?_comma (rest : List Char) : next? (',' :: rest) = some (.comma, rest) :=
  rfl

/-- What starts with a quote is read as a string. -/
theorem next?_quote (text : List Char) :
    next? ('"' :: text) = some ((Quoted.content text).map .string id) :=
  rfl

/-- A string is read back from any of its spellings, whatever follows it. -/
theorem next?_writesString {value : String} {text : List Char} (h : WritesString value text)
    (rest : List Char) : next? (text ++ rest) = some (.string (.ok value), rest) := by
  obtain ⟨parts, hparts, rfl⟩ := h
  rw [List.cons_append, List.append_assoc, List.singleton_append, next?_quote,
    Quoted.content_of_writesChar hparts]
  rfl

theorem next?_write (value : String) (rest : List Char) :
    next? ((Quoted.write value).toList ++ rest) = some (.string (.ok value), rest) :=
  next?_writesString (Quoted.writesString_write value) rest

/-- What may stand between quotes is one token, whatever follows it. -/
theorem exists_next?_of_isString {text : List Char} (h : IsString text) :
    ∃ found : Except Flaw String, (∀ flaw, found = .error flaw → flaw.skipped = none) ∧
      ∀ rest, next? (text ++ rest) = some (.string found, rest) := by
  obtain ⟨parts, hparts, rfl⟩ := h
  obtain ⟨found, hfound, hcontent⟩ := Quoted.exists_content_of_isPiece hparts
  refine ⟨found, hfound, fun rest => ?_⟩
  rw [List.cons_append, List.append_assoc, List.singleton_append, next?_quote, hcontent]
  rfl

/-- Blanks in front of a token are passed over. -/
theorem next?_blank {blank : List Char} (h : IsBlank blank) (text : List Char) :
    next? (blank ++ text) = next? text := by
  have hblank : ∀ c ∈ blank, isBlank c = true := by
    intro c hc
    have hmem := h c hc
    simp only [List.mem_cons, List.not_mem_nil, or_false] at hmem
    rcases hmem with rfl | rfl | rfl | rfl <;> rfl
  rw [next?, List.dropWhile_append_of_pos hblank, next?]

/-- What starts like a numeral is read as one. -/
theorem next?_of_numeral {c : Char} (h : c = '-' ∨ c.isDigit = true) (text : List Char) :
    next? (c :: text) = some (number (c :: text)) := by
  have hblank : isBlank c = false := by
    cases hblank : isBlank c with
    | false => rfl
    | true =>
      simp only [isBlank, Bool.or_eq_true, decide_eq_true_eq] at hblank
      rcases hblank with ((rfl | rfl) | rfl) | rfl <;> simp at h
  rw [next?, List.dropWhile_cons_of_neg (by simp [hblank])]
  unfold starting
  simp only [Option.some.injEq]
  split
  case h_11 => rw [if_pos h]
  all_goals simp at h

/-- A numeral is one token, in front of a mark or a blank, whether its number is in range or
not. -/
theorem next?_text {numeral : Numeral} (h : numeral.IsWellFormed) {rest : List Char}
    (hrest : AtMark rest) :
    next? (numeral.text.toList ++ rest) = some (.leaf numeral.draft, rest) := by
  have hstart : ∃ c more, numeral.text.toList = c :: more ∧ (c = '-' ∨ c.isDigit = true) := by
    rw [Numeral.toList_text]
    obtain ⟨c, more, hcons, hdigit, -⟩ := h.whole.exists_cons
    cases numeral.negative with
    | true => exact ⟨'-', _, rfl, Or.inl rfl⟩
    | false =>
      rw [hcons]
      exact ⟨c, _, rfl, Or.inr hdigit⟩
  obtain ⟨c, more, htext, hc⟩ := hstart
  rw [htext, List.cons_append, next?_of_numeral hc, ← List.cons_append, ← htext, number,
    Numeral.scan_text h hrest]
  simp only [Numeral.draft]
  cases numeral.number <;> rfl

/-- An integer is read back from its text, in front of a mark or a blank. -/
theorem next?_number {rest : List Char} (hrest : AtMark rest) {value : Number}
    (h : value.IsExact) :
    next? (value.text.toList ++ rest) = some (.leaf (.number value), rest) := by
  cases value with
  | real text => exact h.elim
  | int value =>
    rw [← Numeral.toList_text_ofInt, next?_text (Numeral.isWellFormed_ofInt value) hrest,
      Numeral.draft, Numeral.number_ofInt h]

end Token

end Json

end SourceMapIndex
