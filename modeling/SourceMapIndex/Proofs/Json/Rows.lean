import SourceMapIndex.Json.Stage
import SourceMapIndex.Proofs.Json.Scanning

/-!
# Values inside a text

A text is read as a value if every stage that awaits one takes it for its next part. Arrays and
objects are rows of parts with commas between them. One lemma says how a row is read, for any
kind of parts; arrays and objects are its cases.

## Main definitions

- `Stage.Awaits`, `Stage.AwaitsKey` — a stage takes a value next, or the key of a member
- `Json.ReadsAs`, `Json.ReadsAsMember` — what a text is read as by these stages

## Main results

- `Stage.read_separated`, `Stage.read_enclosed` — a row is read part by part
- `ReadsAs.array`, `ReadsAs.object` — arrays and objects
- `ReadsAs.ofText` — a text that has a value and blanks around it
-/

namespace SourceMapIndex

namespace Json

open Numeral (AtMark atMark_cons)

theorem Numeral.atMark_blank {blank rest : List Char} (h : IsBlank blank) (hrest : AtMark rest) :
    AtMark (blank ++ rest) := by
  cases blank with
  | nil => exact hrest
  | cons c more =>
    intro d hd
    have hmem := h c List.mem_cons_self
    rw [← Option.some.inj hd]
    simp only [List.mem_cons, List.not_mem_nil, or_false] at hmem ⊢
    tauto

namespace Stage

/-! ### One token -/

theorem read_of_next? {text rest : List Char} {token : Token}
    (h : Token.next? text = some (token, rest)) (stage : Stage) :
    stage.read text = (stage.step token).read rest := by
  rw [read]
  split
  · next hnone => rw [h] at hnone; cases hnone
  · next found after hsome =>
    rw [h] at hsome
    obtain ⟨rfl, rfl⟩ := Prod.mk.inj (Option.some.inj hsome)
    rfl

theorem read_of_next?_eq_none {text : List Char} (h : Token.next? text = none) (stage : Stage) :
    stage.read text = stage := by
  rw [read]
  split
  · rfl
  · next hsome => rw [h] at hsome; cases hsome

theorem read_nil (stage : Stage) : stage.read [] = stage :=
  read_of_next?_eq_none rfl stage

/-- Blanks in front of a text make no difference. -/
theorem read_blank {blank : List Char} (h : IsBlank blank) (stage : Stage) (text : List Char) :
    stage.read (blank ++ text) = stage.read text := by
  have hnext := Token.next?_blank h text
  cases htext : Token.next? text with
  | none => rw [read_of_next?_eq_none (hnext.trans htext), read_of_next?_eq_none htext]
  | some found => rw [read_of_next? (hnext.trans htext), read_of_next? htext]

/-- A stage takes a value as the next part of what is around it. -/
def Awaits (stage : Stage) (outer : List Frame) : Prop :=
  ∀ token, token ≠ .endArray → stage.step token = begin outer token

/-- A stage takes the key of a member next. -/
def AwaitsKey (stage : Stage) (before : List (Except Flaw String × Draft))
    (outer : List Frame) : Prop :=
  ∀ key, stage.step (.string key) = .atColon before key outer

theorem awaits_atValue (outer : List Frame) : Awaits (.atValue outer) outer :=
  fun _ _ => rfl

theorem awaits_inArray (before : List Draft) (outer : List Frame) :
    Awaits (.inArray before true outer) (.array before :: outer) := by
  intro token hend
  cases token <;> first | rfl | exact absurd rfl hend

theorem awaitsKey_inObject (before : List (Except Flaw String × Draft)) (outer : List Frame) :
    AwaitsKey (.inObject before true outer) before outer :=
  fun _ => rfl

theorem awaitsKey_atKey (before : List (Except Flaw String × Draft)) (outer : List Frame) :
    AwaitsKey (.atKey before outer) before outer :=
  fun _ => rfl

/-! ### Rows -/

section Separated

variable {π : Type} {awaits : Stage → List π → Prop} {behind : List π → Stage}

/-- A text is read as one more part of a row. -/
def ReadsAsPart (awaits : Stage → List π → Prop) (behind : List π → Stage) (text : List Char)
    (part : π) : Prop :=
  ∀ stage before rest, awaits stage before → AtMark rest →
    stage.read (text ++ rest) = (behind (part :: before)).read rest

/-- If a comma makes a row await another part, texts with commas between them are read as so
many parts. -/
theorem read_separated
    (hcomma : ∀ part before, awaits ((behind (part :: before)).step .comma) (part :: before))
    {texts : List (List Char)} {row : List Char} (h : Separated texts row) {parts : List π}
    (hparts : List.Forall₂ (ReadsAsPart awaits behind) texts parts) {stage : Stage}
    {before : List π} (hstage : awaits stage before) {rest : List Char} (hrest : AtMark rest) :
    stage.read (row ++ rest) = (behind (parts.reverse ++ before)).read rest := by
  induction h generalizing parts stage before with
  | last hbefore hafter =>
    obtain ⟨part, _, hpart, hend, rfl⟩ := List.forall₂_cons_left_iff.mp hparts
    obtain rfl := List.forall₂_nil_left_iff.mp hend
    rw [List.append_assoc, List.append_assoc, read_blank hbefore,
      hpart _ _ _ hstage (Numeral.atMark_blank hafter hrest), read_blank hafter]
    rfl
  | cons hbefore hafter _ ih =>
    obtain ⟨part, later, hpart, hlater, rfl⟩ := List.forall₂_cons_left_iff.mp hparts
    rw [List.append_assoc, List.append_assoc, List.append_assoc, read_blank hbefore,
      List.cons_append,
      hpart _ _ _ hstage (Numeral.atMark_blank hafter (atMark_cons (Or.inl rfl) _)),
      read_blank hafter, read_of_next? (Token.next?_comma _), ih hlater (hcomma part before),
      List.reverse_cons, List.append_assoc, List.singleton_append]

/-- The stages of a row in brackets: the first one behind the opening bracket, the one behind
the last of some parts, and the one behind the closing bracket. -/
structure ReadsRow (awaits : Stage → List π → Prop) (behind : List π → Stage) (closing : Token)
    (first : Stage) (whole : List π → Stage) : Prop where
  next : awaits first []
  comma : ∀ part before, awaits ((behind (part :: before)).step .comma) (part :: before)
  empty : first.step closing = whole []
  last : ∀ before, (behind before).step closing = whole before.reverse

/-- Texts with commas between them and brackets around them are read as so many parts. -/
theorem read_enclosed {opening closing : Char} {start finish : Token} {first : Stage}
    {whole : List π → Stage} (hrow : ReadsRow awaits behind finish first whole)
    (hopening : ∀ rest, Token.next? (opening :: rest) = some (start, rest))
    (hclosing : ∀ rest, Token.next? (closing :: rest) = some (finish, rest))
    (hmark : ∀ rest, AtMark (closing :: rest)) {texts : List (List Char)} {text : List Char}
    (h : Enclosed opening closing texts text) {parts : List π}
    (hparts : List.Forall₂ (ReadsAsPart awaits behind) texts parts) {stage : Stage}
    (hstage : stage.step start = first) (rest : List Char) :
    stage.read (text ++ rest) = (whole parts).read rest := by
  cases h with
  | empty hblank =>
    obtain rfl := List.forall₂_nil_left_iff.mp hparts
    rw [List.cons_append, List.append_assoc, read_of_next? (hopening _), hstage,
      read_blank hblank, List.singleton_append, read_of_next? (hclosing rest), hrow.empty]
  | parts hseparated =>
    rw [List.cons_append, List.append_assoc, read_of_next? (hopening _), hstage,
      List.singleton_append,
      read_separated hrow.comma hseparated hparts hrow.next (hmark rest),
      read_of_next? (hclosing rest), hrow.last, List.append_nil, List.reverse_reverse]

end Separated

end Stage

/-! ### Values -/

/-- A text is read as a value by every stage that awaits one. -/
def ReadsAs (text : List Char) (draft : Draft) : Prop :=
  ∀ (stage : Stage) outer rest, stage.Awaits outer → AtMark rest →
    stage.read (text ++ rest) = (Stage.put draft outer).read rest

/-- A text is read as a member by every stage that awaits the key of one. -/
def ReadsAsMember (text : List Char) (member : Except Flaw String × Draft) : Prop :=
  ∀ (stage : Stage) before outer rest, stage.AwaitsKey before outer → AtMark rest →
    stage.read (text ++ rest) = (Stage.inObject (member :: before) false outer).read rest

/-- A key, a colon and the text of a value are read as a member. -/
theorem ReadsAsMember.of_joins {member : List Char × List Char} {text : List Char} {draft : Draft}
    (h : JoinsMember member text) {key : Except Flaw String}
    (hkey : ∀ rest, Token.next? (member.1 ++ rest) = some (.string key, rest))
    (hvalue : ReadsAs member.2 draft) : ReadsAsMember text (key, draft) := by
  obtain ⟨before, after, hbefore, hafter, rfl⟩ := h
  intro stage seen outer rest hstage hrest
  rw [List.append_assoc, Stage.read_of_next? (hkey _), hstage, List.append_assoc,
    Stage.read_blank hbefore, List.cons_append, Stage.read_of_next? (Token.next?_colon _),
    List.append_assoc, Stage.read_blank hafter]
  exact hvalue _ _ _ (Stage.awaits_atValue (.object seen key :: outer)) hrest

namespace ReadsAs

variable {text : List Char} {draft : Draft}

theorem of_leaf
    (h : ∀ rest, AtMark rest → Token.next? (text ++ rest) = some (.leaf draft, rest)) :
    ReadsAs text draft := by
  intro stage outer rest hstage hrest
  rw [Stage.read_of_next? (h rest hrest), hstage (.leaf draft) nofun]
  rfl

theorem of_string {value : String}
    (h : ∀ rest, Token.next? (text ++ rest) = some (.string (.ok value), rest)) :
    ReadsAs text (.string value) := by
  intro stage outer rest hstage _
  rw [Stage.read_of_next? (h rest), hstage (.string _) nofun]
  rfl

theorem of_flawed_string {flaw : Flaw}
    (h : ∀ rest, Token.next? (text ++ rest) = some (.string (.error flaw), rest)) :
    ReadsAs text (.flawed flaw) := by
  intro stage outer rest hstage _
  rw [Stage.read_of_next? (h rest), hstage (.string _) nofun]
  rfl

/-- The texts of values in brackets are read as an array. -/
theorem array {texts : List (List Char)} {drafts : List Draft}
    (h : Enclosed '[' ']' texts text) (hparts : List.Forall₂ ReadsAs texts drafts) :
    ReadsAs text (.array drafts none) := by
  intro stage outer rest hstage _
  have hrow : Stage.ReadsRow (fun stage before => stage.Awaits (.array before :: outer))
      (fun before => .inArray before false outer) .endArray (.inArray [] true outer)
      (fun drafts => Stage.put (.array drafts none) outer) :=
    ⟨Stage.awaits_inArray [] outer, fun _ _ => Stage.awaits_atValue _, rfl, fun _ => rfl⟩
  refine Stage.read_enclosed hrow Token.next?_beginArray Token.next?_endArray
    (atMark_cons (by simp)) h (hparts.imp ?_) (hstage .beginArray nofun) rest
  exact fun _ _ hpart stage before rest => hpart stage (.array before :: outer) rest

/-- The texts of members in braces are read as an object. -/
theorem object {texts : List (List Char)} {members : List (Except Flaw String × Draft)}
    (h : Enclosed '\x7b' '\x7d' texts text) (hparts : List.Forall₂ ReadsAsMember texts members) :
    ReadsAs text (.object members none) := by
  intro stage outer rest hstage _
  have hrow : Stage.ReadsRow (fun stage before => stage.AwaitsKey before outer)
      (fun before => .inObject before false outer) .endObject (.inObject [] true outer)
      (fun members => Stage.put (.object members none) outer) :=
    ⟨Stage.awaitsKey_inObject [] outer, fun _ _ => Stage.awaitsKey_atKey _ _, rfl, fun _ => rfl⟩
  refine Stage.read_enclosed hrow Token.next?_beginObject Token.next?_endObject
    (atMark_cons (by simp)) h (hparts.imp ?_) (hstage .beginObject nofun) rest
  exact fun _ _ hpart stage before rest => hpart stage before outer rest

/-- A text that has a value and blanks around it is read as this value, and nothing is left. -/
theorem ofText (h : ReadsAs text draft) {before after : List Char} (hbefore : IsBlank before)
    (hafter : IsBlank after) :
    Draft.ofText (String.ofList (before ++ (text ++ after))) = (draft, false) := by
  have hend : AtMark (after ++ []) := Numeral.atMark_blank hafter nofun
  have hread := h _ _ _ (Stage.awaits_atValue []) hend
  rw [Stage.read_blank hafter, Stage.read_nil, List.append_nil] at hread
  rw [Draft.ofText, String.toList_ofList, Stage.read_blank hbefore, hread]
  rfl

end ReadsAs

end Json

end SourceMapIndex
