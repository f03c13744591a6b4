import SourceMapIndex.Text.Parts

/-!
# Parts and their text

Joining parts and taking the text apart again gives the parts, if none of them contains the
separator. One list of parts is lost: a single blank part has a blank text, and that has no
parts. The fields of a text are its parts with this one part put back; they alone go along
with the joining of two texts.

## Main definitions

- `Text.fields` — the parts of a text, where a blank text has one

## Main results

- `Text.parts_join` — the parts of joined parts
- `Text.join_parts` — the text of the parts of a text
- `Text.fields_append` — the fields of two texts with a separator between them
-/

namespace SourceMapIndex

namespace Text

theorem toList_join (separator : Char) (parts : List String) :
    (join separator parts).toList = [separator].intercalate (parts.map String.toList) := by
  simp [join, String.toList_intercalate]

/-- The text of parts is blank only if there are none, or if there is a single blank one. -/
theorem join_eq_empty_iff {separator : Char} {parts : List String} :
    join separator parts = "" ↔ parts = [] ∨ parts = [""] := by
  rw [← String.toList_inj, toList_join]
  match parts with
  | [] => simp
  | [part] => simp
  | first :: second :: rest => simp [List.intercalate]

/-- The text of some parts has no other characters than theirs and the separator. -/
theorem not_mem_join {separator c : Char} {parts : List String} (hc : c ≠ separator)
    (h : ∀ part ∈ parts, c ∉ part.toList) : c ∉ (join separator parts).toList := by
  rw [toList_join]
  induction parts with
  | nil => simp
  | cons first rest ih =>
    have hfirst := h first List.mem_cons_self
    have hrest := ih fun part hpart => h part (List.mem_cons_of_mem first hpart)
    cases rest with
    | nil => simpa using hfirst
    | cons second others =>
      rw [List.map_cons, List.map_cons, List.intercalate_cons_cons]
      simp only [List.mem_append, List.mem_singleton, not_or]
      exact ⟨⟨hfirst, hc⟩, by simpa using hrest⟩

theorem parts_join {separator : Char} {texts : List String}
    (hfree : ∀ text ∈ texts, separator ∉ text.toList) (hblank : texts ≠ [""]) :
    parts separator (join separator texts) = texts := by
  by_cases hnil : texts = []
  · rw [hnil]
    rfl
  · have hne : join separator texts ≠ "" := by
      rw [Ne, join_eq_empty_iff]
      exact fun h => h.elim hnil hblank
    have hsplit : (join separator texts).toList.splitOn separator =
        texts.map String.toList := by
      rw [toList_join]
      apply List.splitOn_intercalate
      · intro text htext
        obtain ⟨part, hpart, rfl⟩ := List.mem_map.mp htext
        exact hfree part hpart
      · simpa using hnil
    rw [parts, if_neg (by simpa using hne), hsplit, List.map_map]
    simp [Function.comp_def]

/-- What stands between the occurrences of `separator`, a blank text being one blank field. -/
def fields (separator : Char) (text : String) : List String :=
  (text.toList.splitOn separator).map String.ofList

theorem parts_empty (separator : Char) : parts separator "" = [] :=
  rfl

theorem fields_empty (separator : Char) : fields separator "" = [""] :=
  rfl

theorem parts_eq_fields {separator : Char} {text : String} (h : text ≠ "") :
    parts separator text = fields separator text :=
  if_neg (by simpa using h)

theorem fields_append (separator : Char) (s t : String) :
    fields separator (s ++ String.singleton separator ++ t) =
      fields separator s ++ fields separator t := by
  simp [fields, List.splitOn_append_cons_self]

theorem length_splitOn (separator : Char) (text : List Char) :
    (text.splitOn separator).length = text.count separator + 1 := by
  induction text with
  | nil => rfl
  | cons c rest ih =>
    rw [List.splitOn_cons_eq_if_modifyHead, List.count_cons]
    split
    · rw [List.length_cons, ih]
    · rw [List.length_modifyHead, ih]

/-- A text has one field more than separators. -/
theorem length_fields (separator : Char) (text : String) :
    (fields separator text).length = text.toList.count separator + 1 := by
  rw [fields, List.length_map, length_splitOn]

/-! ### Putting parts together again -/

/-- The lists between the separators have the other characters of the text and no more. -/
theorem mem_splitOn_subset {separator : Char} {text part : List Char}
    (h : part ∈ text.splitOn separator) : ∀ c ∈ part, c ∈ text ∧ c ≠ separator := by
  induction text generalizing part with
  | nil =>
    rw [List.splitOn_nil, List.mem_singleton] at h
    simp [h]
  | cons first rest ih =>
    have hrest : ∀ other ∈ rest.splitOn separator, ∀ c ∈ other, c ∈ first :: rest ∧ c ≠ separator :=
      fun other hother c hc => ⟨List.mem_cons_of_mem first (ih hother c hc).1, (ih hother c hc).2⟩
    rw [List.splitOn_cons_eq_if_modifyHead] at h
    split at h
    · rcases List.mem_cons.mp h with rfl | hpart
      · simp
      · exact hrest part hpart
    · next hfirst =>
      -- the first part is longer by the first character, the others are those of the rest
      obtain ⟨head, others, hsplit⟩ := List.exists_cons_of_ne_nil (List.splitOn_ne_nil separator rest)
      rw [hsplit] at h hrest
      rcases List.mem_cons.mp h with rfl | hpart
      · intro c hc
        rcases List.mem_cons.mp hc with rfl | hhead
        · exact ⟨List.mem_cons_self, by simpa using hfirst⟩
        · exact hrest head List.mem_cons_self c hhead
      · exact hrest part (List.mem_cons_of_mem head hpart)

theorem mem_parts_subset {separator : Char} {text part : String} (h : part ∈ parts separator text) :
    ∀ c ∈ part.toList, c ∈ text.toList ∧ c ≠ separator := by
  unfold parts at h
  split at h
  · cases h
  · obtain ⟨list, hlist, rfl⟩ := List.mem_map.mp h
    rw [String.toList_ofList]
    exact mem_splitOn_subset hlist

/-- The parts of a text, joined, are the text. -/
theorem join_parts (separator : Char) (text : String) :
    join separator (parts separator text) = text := by
  by_cases hblank : text = ""
  · rw [hblank, parts_empty]
    rfl
  · rw [parts_eq_fields hblank, ← String.toList_inj, toList_join, fields, List.map_map]
    have hid : String.toList ∘ String.ofList = id := funext fun _ => String.toList_ofList
    rw [hid, List.map_id, List.intercalate_splitOn]

theorem parts_eq_nil_iff {separator : Char} {text : String} :
    parts separator text = [] ↔ text = "" := by
  constructor
  · intro hparts
    rw [← join_parts separator text, hparts]
    rfl
  · rintro rfl
    exact parts_empty separator

theorem parts_ne_singleton (separator : Char) (text : String) : parts separator text ≠ [""] := by
  intro hparts
  have htext := join_parts separator text
  rw [hparts, join_eq_empty_iff.mpr (Or.inr rfl)] at htext
  rw [← htext, parts_empty] at hparts
  cases hparts

/-- A text has one part more than separators, and none if it is blank. -/
theorem length_parts (separator : Char) (text : String) :
    (parts separator text).length =
      if text = "" then 0 else text.toList.count separator + 1 := by
  split
  · next hblank => rw [hblank, parts_empty, List.length_nil]
  · next hblank => rw [parts_eq_fields hblank, length_fields]

end Text

end SourceMapIndex
