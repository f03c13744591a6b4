import SourceMapIndex.Json.Reading
import SourceMapIndex.Proofs.Json.Rows

/-!
# Passing over a value

Whatever the text of a value is, a reader who does not want it gets past it and comes to what
follows. Numbers out of range and units without their other half are no hindrance, and no depth
is too much. Strings and lists of strings are read by their readers, in any spelling.

## Main definitions

- `Json.Passes` — a text is read as a value that a reader can skip

## Main results

- `IsValue.passes` — every value can be passed over
- `WritesString.readsAs`, `WritesStrings.readsAs` — strings and arrays of strings
- `IsTextOf.readText_eq` — a text is read as the value in it
-/

namespace SourceMapIndex

namespace Json

/-! ### Drafts that can be skipped -/

theorem Numeral.skip_draft (numeral : Numeral) : numeral.draft.skip = .ok () := by
  unfold draft number
  cases numeral.integer? with
  | some value => rfl
  | none => cases numeral.exceedsDouble <;> rfl

theorem skipItems_cons {item : Draft} {items : List Draft} (h : item.skip = .ok ())
    (hitems : Draft.skipItems items = .ok ()) : Draft.skipItems (item :: items) = .ok () := by
  rw [Draft.skipItems, h]
  exact hitems

theorem skipMembers_cons {key : Except Flaw String} {value : Draft}
    {members : List (Except Flaw String × Draft)}
    (hkey : ∀ flaw, key = .error flaw → flaw.skipped = none) (h : value.skip = .ok ())
    (hmembers : Draft.skipMembers members = .ok ()) :
    Draft.skipMembers ((key, value) :: members) = .ok () := by
  cases key with
  | ok key =>
    rw [Draft.skipMembers, h]
    · exact hmembers
    · nofun
  | error flaw =>
    obtain ⟨fault, skipped⟩ := flaw
    obtain rfl : skipped = none := hkey _ rfl
    rw [Draft.skipMembers, h]
    · exact hmembers
    · nofun

/-- A text is read as a value that a reader can skip. -/
def Passes (text : List Char) : Prop :=
  ∃ draft : Draft, draft.skip = .ok () ∧ ReadsAs text draft

theorem exists_items_of_passes {texts : List (List Char)} (h : ∀ text ∈ texts, Passes text) :
    ∃ drafts, Draft.skipItems drafts = .ok () ∧ List.Forall₂ ReadsAs texts drafts := by
  induction texts with
  | nil => exact ⟨[], rfl, .nil⟩
  | cons text texts ih =>
    obtain ⟨⟨draft, hskip, hreads⟩, htexts⟩ := List.forall_mem_cons.mp h
    obtain ⟨drafts, hskips, hall⟩ := ih htexts
    exact ⟨draft :: drafts, skipItems_cons hskip hskips, .cons hreads hall⟩

theorem exists_members_of_passes {members : List (List Char × List Char)}
    {texts : List (List Char)} (htexts : List.Forall₂ JoinsMember members texts)
    (hkeys : ∀ member ∈ members, IsString member.1)
    (hvalues : ∀ member ∈ members, Passes member.2) :
    ∃ drafts, Draft.skipMembers drafts = .ok () ∧ List.Forall₂ ReadsAsMember texts drafts := by
  induction htexts with
  | nil => exact ⟨[], rfl, .nil⟩
  | cons hjoins _ ih =>
    obtain ⟨hkey, hkeys⟩ := List.forall_mem_cons.mp hkeys
    obtain ⟨⟨draft, hskip, hreads⟩, hvalues⟩ := List.forall_mem_cons.mp hvalues
    obtain ⟨key, hflaw, hnext⟩ := Token.exists_next?_of_isString hkey
    obtain ⟨drafts, hskips, hall⟩ := ih hkeys hvalues
    exact ⟨(key, draft) :: drafts, skipMembers_cons hflaw hskip hskips,
      .cons (.of_joins hjoins hnext hreads) hall⟩

theorem IsString.passes {text : List Char} (h : IsString text) : Passes text := by
  obtain ⟨found, hflaw, hnext⟩ := Token.exists_next?_of_isString h
  cases found with
  | ok value => exact ⟨.string value, rfl, .of_string hnext⟩
  | error flaw =>
    obtain ⟨fault, skipped⟩ := flaw
    obtain rfl : skipped = none := hflaw _ rfl
    exact ⟨.flawed ⟨fault, none⟩, rfl, .of_flawed_string hnext⟩

/-- Every value can be passed over, whatever is in it. -/
theorem IsValue.passes {text : List Char} (h : IsValue text) : Passes text := by
  induction h with
  | word hword =>
    simp only [List.mem_cons, List.not_mem_nil, or_false] at hword
    rcases hword with rfl | rfl | rfl
    · exact ⟨.null, rfl, .of_leaf fun _ _ => rfl⟩
    · exact ⟨.bool true, rfl, .of_leaf fun _ _ => rfl⟩
    · exact ⟨.bool false, rfl, .of_leaf fun _ _ => rfl⟩
  | number hnumber =>
    obtain ⟨numeral, hnumeral, rfl⟩ := hnumber
    exact ⟨numeral.draft, numeral.skip_draft,
      .of_leaf fun _ hrest => Token.next?_text hnumeral hrest⟩
  | string hstring => exact hstring.passes
  | array _ henclosed ih =>
    obtain ⟨drafts, hskips, hall⟩ := exists_items_of_passes ih
    exact ⟨.array drafts none, by rw [Draft.skip, hskips]; rfl, .array henclosed hall⟩
  | object hkeys _ htexts henclosed ih =>
    obtain ⟨drafts, hskips, hall⟩ := exists_members_of_passes htexts hkeys ih
    exact ⟨.object drafts none, by rw [Draft.skip, hskips]; rfl, .object henclosed hall⟩

/-! ### Values that are wanted -/

theorem WritesString.readsAs {value : String} {text : List Char} (h : WritesString value text) :
    ReadsAs text (.string value) :=
  .of_string (Token.next?_writesString h)

theorem WritesStrings.readsAs {values : List String} {text : List Char}
    (h : WritesStrings values text) :
    ReadsAs text (.array (values.map Draft.string) none) := by
  obtain ⟨texts, htexts, henclosed⟩ := h
  refine .array henclosed (List.forall₂_map_right_iff.mpr ?_)
  exact (htexts.imp fun _ _ hwrites => hwrites.readsAs).flip

theorem asList_strings (values : List String) :
    (Draft.array (values.map Draft.string) none).asList Draft.asString = .ok values := by
  have hitems : (values.map Draft.string).mapM Draft.asString = .ok values := by
    induction values with
    | nil => rfl
    | cons value rest ih =>
      rw [List.map_cons, List.mapM_cons, ih]
      rfl
  rw [Draft.asList, hitems]
  rfl

/-- A reader of a text reads the value in it. -/
theorem IsTextOf.readText_eq {α : Type} {reader : Draft → Except Fault α} {draft : Draft}
    {part : List Char} {text : String} (h : IsTextOf part text) (hpart : ReadsAs part draft) :
    readText reader text = reader draft := by
  obtain ⟨before, after, hbefore, hafter, rfl⟩ := h
  rw [readText, hpart.ofText hbefore hafter]
  simp only [bind, Except.bind]
  cases reader draft <;> rfl

end Json

end SourceMapIndex
