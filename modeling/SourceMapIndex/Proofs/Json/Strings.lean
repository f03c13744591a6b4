import SourceMapIndex.Json.Quoted
import SourceMapIndex.Proofs.Json.Grammar

/-!
# The spellings of a string

A string is read back from any of its spellings: a character may stand for itself, be escaped by
a letter, or be given by the digits of its units. A reader who skips a string takes anything
that may stand between quotes, a unit without its other half included.

## Main definitions

- `Quoted.Scans` — a text is scanned as some pieces
- `Quoted.Joins` — some pieces are joined to one character

## Main results

- `Quoted.content_of_writesChar` — a string is read back from its spellings
- `Quoted.exists_content_of_isPiece` — what spells no string can still be skipped
- `Quoted.writesString_write` — a string is written in one of its spellings
- `Json.WritesString.isString` — what spells a string may stand between quotes
-/

namespace SourceMapIndex

namespace Json

/-! ### Lists side by side -/

section Forall₂

variable {α β γ : Type} {R : α → β → Prop} {as : List α} {bs : List β}

theorem forall_mem_of_forall₂ {p : β → Prop} (h : List.Forall₂ R as bs)
    (hp : ∀ a b, R a b → p b) : ∀ b ∈ bs, p b := by
  induction h with
  | nil => nofun
  | cons hab _ ih => exact List.forall_mem_cons.mpr ⟨hp _ _ hab, ih⟩

theorem exists_forall₂_of_forall₂ {S : β → γ → Prop} {T : α → γ → Prop}
    (h : List.Forall₂ R as bs) (hR : ∀ a b, R a b → ∃ c, S b c ∧ T a c) :
    ∃ cs, List.Forall₂ S bs cs ∧ List.Forall₂ T as cs := by
  induction h with
  | nil => exact ⟨[], .nil, .nil⟩
  | cons hab _ ih =>
    obtain ⟨c, hS, hT⟩ := hR _ _ hab
    obtain ⟨cs, hSs, hTs⟩ := ih
    exact ⟨c :: cs, .cons hS hSs, .cons hT hTs⟩

end Forall₂

namespace Quoted

/-- A text is scanned as some pieces, whatever follows it. -/
def Scans (text : List Char) (pieces : List Piece) : Prop :=
  ∀ before rest, scan before (text ++ rest) = scan (pieces.reverse ++ before) rest

/-- Some pieces are joined to one character, whatever follows them. -/
def Joins (pieces : List Piece) (c : Char) : Prop :=
  ∀ ending before more, join ending before (pieces ++ more) = join ending (c :: before) more

section Scans

variable {text more : List Char} {pieces others : List Piece}

theorem scans_nil : Scans [] [] :=
  fun _ _ => rfl

theorem Scans.append (h : Scans text pieces) (hmore : Scans more others) :
    Scans (text ++ more) (pieces ++ others) := by
  intro before rest
  rw [List.append_assoc, h, hmore, List.reverse_append, List.append_assoc]

theorem Scans.scan_quote (h : Scans text pieces) (rest : List Char) :
    scan [] (text ++ '"' :: rest) = (pieces, .closed rest) := by
  rw [h, scan, List.append_nil, List.reverse_reverse]

theorem scans_plain {c : Char} (h : IsPlain c) : Scans [c] [.char c] := by
  obtain ⟨hcontrol, hquote, hbackslash⟩ := h
  intro before rest
  rw [List.singleton_append, scan]
  · rw [if_neg (Nat.not_lt.mpr hcontrol)]
    rfl
  all_goals simp_all

theorem scans_letter {letter c : Char} (h : (letter, c) ∈ letters) :
    Scans ['\\', letter] [.char c] := by
  intro before rest
  simp only [letters, List.mem_cons, Prod.mk.injEq, List.not_mem_nil, or_false] at h
  rcases h with ⟨rfl, rfl⟩ | ⟨rfl, rfl⟩ | ⟨rfl, rfl⟩ | ⟨rfl, rfl⟩ | ⟨rfl, rfl⟩ | ⟨rfl, rfl⟩ |
    ⟨rfl, rfl⟩ | ⟨rfl, rfl⟩ <;> rfl

theorem hexValue?_of_isHexDigit {value : Nat} {c : Char} (h : IsHexDigit value c) :
    hexValue? c = some value := by
  have hall : ∀ value < 16, hexValue? (hexDigit value) = some value ∧
      hexValue? (hexDigit value).toUpper = some value := by
    decide
  obtain ⟨hlt, rfl | rfl⟩ := h
  · exact (hall value hlt).1
  · exact (hall value hlt).2

theorem scans_unit {value : Nat} (h : WritesUnit value text) : Scans text [.unit value] := by
  obtain ⟨a, b, c, d, ha, hb, hc, hd, rfl⟩ := h
  have hunit : unit? a b c d = some value := by
    simp only [unit?, hexValue?_of_isHexDigit ha, hexValue?_of_isHexDigit hb,
      hexValue?_of_isHexDigit hc, hexValue?_of_isHexDigit hd, Option.bind_eq_bind,
      Option.bind_some, Option.pure_def, Option.some.injEq]
    omega
  intro before rest
  simp only [List.cons_append, List.nil_append, scan, hunit]
  rfl

end Scans

/-! ### Spellings of a character -/

/-- A unit that is not one of a pair is a character. -/
theorem joins_unit {c : Char} : Joins [.unit c.toNat] c := by
  have hvalid := c.valid
  have hleading : isLeading c.toNat = false := by
    simp only [isLeading, Bool.and_eq_false_iff, decide_eq_false_iff_not, Nat.not_le]
    unfold UInt32.isValidChar Nat.isValidChar at hvalid
    simp only [Char.toNat]
    omega
  have htrailing : isTrailing c.toNat = false := by
    simp only [isTrailing, Bool.and_eq_false_iff, decide_eq_false_iff_not, Nat.not_le]
    unfold UInt32.isValidChar Nat.isValidChar at hvalid
    simp only [Char.toNat]
    omega
  intro ending before more
  cases more <;> simp [join, hleading, htrailing, Char.ofNat_toNat]

theorem joins_pair {c : Char} (h : 0x10000 ≤ c.toNat) :
    Joins [.unit (0xd800 + (c.toNat - 0x10000) / 1024), .unit (0xdc00 + (c.toNat - 0x10000) % 1024)]
      c := by
  have hlt : c.toNat < 0x110000 := by
    have hvalid := c.valid
    unfold UInt32.isValidChar Nat.isValidChar at hvalid
    simp only [Char.toNat]
    omega
  have hpaired : paired (0xd800 + (c.toNat - 0x10000) / 1024)
      (0xdc00 + (c.toNat - 0x10000) % 1024) = c := by
    rw [paired]
    conv_rhs => rw [← Char.ofNat_toNat c]
    congr 1
    omega
  have hfirst : isTrailing (0xd800 + (c.toNat - 0x10000) / 1024) = false ∧
      isLeading (0xd800 + (c.toNat - 0x10000) / 1024) = true := by
    simp only [isTrailing, isLeading, Bool.and_eq_false_iff, Bool.and_eq_true,
      decide_eq_false_iff_not, decide_eq_true_eq]
    omega
  have hsecond : isTrailing (0xdc00 + (c.toNat - 0x10000) % 1024) = true := by
    simp only [isTrailing, Bool.and_eq_true, decide_eq_true_eq]
    omega
  intro ending before more
  simp only [List.cons_append, List.nil_append, join, hfirst, hsecond, hpaired, if_true]
  rfl

/-- Every spelling of a character is scanned as pieces that are joined to the character. -/
theorem WritesChar.exists_pieces {c : Char} {text : List Char} (h : WritesChar c text) :
    ∃ pieces, Scans text pieces ∧ Joins pieces c := by
  cases h with
  | plain h => exact ⟨_, scans_plain h, fun _ _ _ => rfl⟩
  | letter h => exact ⟨_, scans_letter h, fun _ _ _ => rfl⟩
  | units h =>
    unfold Quoted.units at h
    split at h
    · obtain ⟨first, _, hfirst, hrest, rfl⟩ := List.forall₂_cons_left_iff.mp h
      obtain rfl := List.forall₂_nil_left_iff.mp hrest
      rw [List.flatten_singleton]
      exact ⟨_, scans_unit hfirst, joins_unit⟩
    · next hlarge =>
      obtain ⟨first, _, hfirst, hrest, rfl⟩ := List.forall₂_cons_left_iff.mp h
      obtain ⟨second, _, hsecond, hend, rfl⟩ := List.forall₂_cons_left_iff.mp hrest
      obtain rfl := List.forall₂_nil_left_iff.mp hend
      rw [List.flatten_cons, List.flatten_singleton]
      exact ⟨_, (scans_unit hfirst).append (scans_unit hsecond), joins_pair (Nat.not_lt.mp hlarge)⟩

theorem IsPiece.exists_pieces {text : List Char} (h : IsPiece text) :
    ∃ pieces, Scans text pieces := by
  cases h with
  | plain h => exact ⟨_, scans_plain h⟩
  | letter h => exact ⟨_, scans_letter h⟩
  | unit h => exact ⟨_, scans_unit h⟩

/-! ### Spellings of a string -/

theorem exists_pieces_of_writesChar {cs : List Char} {parts : List (List Char)}
    (h : List.Forall₂ WritesChar cs parts) :
    ∃ pieces, Scans parts.flatten pieces ∧ ∀ rest before,
      join (.closed rest) before pieces = .ok (String.ofList (before.reverse ++ cs)) := by
  induction h with
  | nil => exact ⟨[], scans_nil, fun rest before => by rw [join, List.append_nil]⟩
  | cons hfirst _ ih =>
    obtain ⟨pieces, hscans, hjoins⟩ := hfirst.exists_pieces
    obtain ⟨others, hothers, hrest⟩ := ih
    refine ⟨pieces ++ others, hscans.append hothers, fun rest before => ?_⟩
    rw [hjoins, hrest, List.reverse_cons, List.append_assoc, List.singleton_append]

theorem exists_pieces_of_isPiece {parts : List (List Char)} (h : ∀ part ∈ parts, IsPiece part) :
    ∃ pieces, Scans parts.flatten pieces := by
  induction parts with
  | nil => exact ⟨[], scans_nil⟩
  | cons part parts ih =>
    obtain ⟨hpart, hparts⟩ := List.forall_mem_cons.mp h
    obtain ⟨pieces, hscans⟩ := hpart.exists_pieces
    obtain ⟨others, hothers⟩ := ih hparts
    exact ⟨pieces ++ others, hscans.append hothers⟩

/-- What is written between quotes is read back, with what follows the closing quote. -/
theorem content_of_writesChar {value : String} {parts : List (List Char)}
    (h : List.Forall₂ WritesChar value.toList parts) (rest : List Char) :
    content (parts.flatten ++ '"' :: rest) = (.ok value, rest) := by
  obtain ⟨pieces, hscans, hjoin⟩ := exists_pieces_of_writesChar h
  simp [content, hscans.scan_quote, hjoin, Ending.rest]

/-- What follows a string has no influence on it. -/
theorem join_closed (pieces : List Piece) (before rest other : List Char) :
    join (.closed rest) before pieces = join (.closed other) before pieces := by
  fun_induction join (.closed rest) before pieces <;> simp_all [join]

/-- What stands between quotes may spell no string, but there is nothing in the way of a reader
who skips it. -/
theorem exists_content_of_isPiece {parts : List (List Char)} (h : ∀ part ∈ parts, IsPiece part) :
    ∃ found : Except Flaw String, (∀ flaw, found = .error flaw → flaw.skipped = none) ∧
      ∀ rest, content (parts.flatten ++ '"' :: rest) = (found, rest) := by
  obtain ⟨pieces, hscans⟩ := exists_pieces_of_isPiece h
  refine ⟨(join (.closed []) [] pieces).mapError fun fault => ⟨fault, none⟩, ?_, fun rest => ?_⟩
  · cases join (.closed []) [] pieces with
    | error fault =>
      intro flaw hflaw
      cases hflaw
      rfl
    | ok value => nofun
  · simp only [content, hscans.scan_quote, join_closed pieces [] rest []]
    cases join (.closed []) [] pieces <;> rfl

/-- A character is written in one of its spellings. -/
theorem writesChar_escape (c : Char) : WritesChar c (escape c) := by
  unfold escape
  split
  case h_8 hquote hbackslash _ _ _ _ _ =>
    -- a character without a letter of its own: by its digits, or as it is
    split
    · next hcontrol =>
      have hunits : units c = [c.toNat] := if_pos (by omega)
      have hunit : WritesUnit c.toNat
          ['\\', 'u', '0', '0', hexDigit (c.toNat / 16), hexDigit (c.toNat % 16)] := by
        refine ⟨_, _, _, _, ⟨by omega, Or.inl ?_⟩, ⟨by omega, Or.inl ?_⟩, ⟨by omega, Or.inl ?_⟩,
          ⟨by omega, Or.inl rfl⟩, rfl⟩
        · rw [Nat.div_eq_of_lt (by omega)]
          rfl
        · rw [Nat.div_eq_of_lt (by omega)]
          rfl
        · rw [Nat.mod_eq_of_lt (by omega)]
      exact WritesChar.units (hunits ▸ List.Forall₂.cons hunit List.Forall₂.nil)
    · next hplain => exact .plain ⟨Nat.not_lt.mp hplain, hquote, hbackslash⟩
  all_goals exact .letter (by simp [letters])

theorem toList_write (value : String) :
    (write value).toList = '"' :: (value.toList.flatMap escape ++ ['"']) := by
  simp [write]

theorem writesString_write (value : String) : WritesString value (write value).toList := by
  refine ⟨value.toList.map escape, ?_, ?_⟩
  · exact List.forall₂_map_right_iff.mpr (List.forall₂_same.mpr fun c _ => writesChar_escape c)
  · rw [toList_write, List.flatMap_def]

/-! ### Spellings are texts of strings -/

theorem WritesChar.exists_parts {c : Char} {text : List Char} (h : WritesChar c text) :
    ∃ parts : List (List Char), (∀ part ∈ parts, IsPiece part) ∧ text = parts.flatten := by
  cases h with
  | @plain c h => exact ⟨[[c]], by simpa using .plain h, rfl⟩
  | @letter letter c h => exact ⟨[['\\', letter]], by simpa using .letter h, rfl⟩
  | @units c texts h => exact ⟨texts, forall_mem_of_forall₂ h fun _ _ => .unit, rfl⟩

theorem exists_parts_of_writesChar {cs : List Char} {texts : List (List Char)}
    (h : List.Forall₂ WritesChar cs texts) :
    ∃ parts : List (List Char), (∀ part ∈ parts, IsPiece part) ∧
      texts.flatten = parts.flatten := by
  induction h with
  | nil => exact ⟨[], nofun, rfl⟩
  | cons hfirst _ ih =>
    obtain ⟨parts, hpieces, rfl⟩ := hfirst.exists_parts
    obtain ⟨others, hothers, hflatten⟩ := ih
    refine ⟨parts ++ others, List.forall_mem_append.mpr ⟨hpieces, hothers⟩, ?_⟩
    rw [List.flatten_cons, hflatten, List.flatten_append]

end Quoted

/-- A spelling of a string may stand wherever any string may. -/
theorem WritesString.isString {value : String} {text : List Char} (h : WritesString value text) :
    IsString text := by
  obtain ⟨texts, htexts, rfl⟩ := h
  obtain ⟨parts, hpieces, hflatten⟩ := Quoted.exists_parts_of_writesChar htexts
  exact ⟨parts, hpieces, by rw [hflatten]⟩

end Json

end SourceMapIndex
