import SourceMapIndex.Proofs.Json.Rows

/-!
# Reading compact text

The compact text of a value is read back as this value, if all its numbers are integers of
sixty-four bits. Strings and keys may have any characters, and an object may have members of
one key.

## Main definitions

- `Json.Everywhere` — something holds of a value and of all values in it
- `Json.IsExact` — all numbers of a value are known by their values
- `Json.memberText` — the compact text of a member

## Main results

- `Json.isValue_compact` — compact text is derived by the grammar
- `Json.readsAs_compact` — a value is read as one part of what is around it
- `Json.parse_compact` — the compact text of a value is read as the value
-/

namespace SourceMapIndex

namespace Json

mutual

/-- Something holds of a value and of all values in it. -/
def Everywhere (p : Json → Prop) : Json → Prop
  | .array items => p (.array items) ∧ EveryItem p items
  | .object members => p (.object members) ∧ EveryMember p members
  | value => p value

def EveryItem (p : Json → Prop) : List Json → Prop
  | [] => True
  | item :: rest => item.Everywhere p ∧ EveryItem p rest

def EveryMember (p : Json → Prop) : List (String × Json) → Prop
  | [] => True
  | (_, value) :: rest => value.Everywhere p ∧ EveryMember p rest

end

section Everywhere

variable {p : Json → Prop}

theorem everyItem_iff {items : List Json} :
    EveryItem p items ↔ ∀ item ∈ items, item.Everywhere p := by
  induction items with
  | nil => simp [EveryItem]
  | cons item rest ih => simp [EveryItem, ih]

theorem everyMember_iff {members : List (String × Json)} :
    EveryMember p members ↔ ∀ member ∈ members, member.2.Everywhere p := by
  induction members with
  | nil => simp [EveryMember]
  | cons member rest ih => simp [EveryMember, ih]

end Everywhere

/-- If a value is a number, the number is known by its value. -/
def NumberIsExact : Json → Prop
  | .number value => value.IsExact
  | _ => True

/-- All numbers of a value are known by their values. -/
def IsExact (value : Json) : Prop :=
  value.Everywhere NumberIsExact

/-! ### The text of a value by its parts -/

theorem appendItems_cons (before : String) (item : Json) {later : List Json} (h : later ≠ []) :
    appendItems before (item :: later) = appendItems (append before item ++ ",") later := by
  rw [appendItems]
  exact h

theorem appendMembers_cons (before key : String) (value : Json) {later : List (String × Json)}
    (h : later ≠ []) :
    appendMembers before ((key, value) :: later) =
      appendMembers (append (before ++ Quoted.write key ++ ":") value ++ ",") later := by
  rw [appendMembers]
  exact h

mutual

/-- What stands before a value has no influence on its text. -/
theorem toList_append (before : String) (value : Json) :
    (append before value).toList = before.toList ++ (compact value).toList := by
  cases value with
  | null => simp [append, compact]
  | bool value => cases value <;> simp [append, compact]
  | number value => simp [append, compact]
  | string value => simp [append, compact]
  | array items =>
    simp [append, compact, toList_appendItems (before ++ "[") items, toList_appendItems "[" items]
  | object members =>
    simp [append, compact, toList_appendMembers (before ++ "\x7b") members,
      toList_appendMembers "\x7b" members]

theorem toList_appendItems (before : String) (items : List Json) :
    (appendItems before items).toList = before.toList ++ (appendItems "" items).toList := by
  match items with
  | [] => simp [appendItems]
  | [item] => simp [appendItems, toList_append before item, toList_append "" item]
  | item :: second :: rest =>
    have hne : second :: rest ≠ [] := List.cons_ne_nil _ _
    rw [appendItems_cons before item hne, appendItems_cons "" item hne,
      toList_appendItems (append before item ++ ",") (second :: rest),
      toList_appendItems (append "" item ++ ",") (second :: rest)]
    simp [toList_append before item, toList_append "" item]

theorem toList_appendMembers (before : String) (members : List (String × Json)) :
    (appendMembers before members).toList = before.toList ++ (appendMembers "" members).toList := by
  match members with
  | [] => simp [appendMembers]
  | [(key, value)] =>
    simp [appendMembers, toList_append (before ++ Quoted.write key ++ ":") value,
      toList_append (Quoted.write key ++ ":") value]
  | (key, value) :: second :: rest =>
    have hne : second :: rest ≠ [] := List.cons_ne_nil _ _
    rw [appendMembers_cons before key value hne, appendMembers_cons "" key value hne,
      toList_appendMembers (append (before ++ _ ++ ":") value ++ ",") (second :: rest),
      toList_appendMembers (append ("" ++ _ ++ ":") value ++ ",") (second :: rest)]
    simp [toList_append (before ++ Quoted.write key ++ ":") value,
      toList_append (Quoted.write key ++ ":") value]

end

theorem toList_compact_number (value : Number) :
    (compact (.number value)).toList = value.text.toList := by
  simp [compact, append]

theorem toList_compact_string (value : String) :
    (compact (.string value)).toList = (Quoted.write value).toList := by
  simp [compact, append]

theorem toList_compact_array (items : List Json) :
    (compact (.array items)).toList = '[' :: ((appendItems "" items).toList ++ [']']) := by
  simp [compact, append, toList_appendItems "[" items]

theorem toList_compact_object (members : List (String × Json)) :
    (compact (.object members)).toList =
      '\x7b' :: ((appendMembers "" members).toList ++ ['\x7d']) := by
  simp [compact, append, toList_appendMembers "\x7b" members]

theorem toList_appendItems_cons (item : Json) (later : List Json) :
    (appendItems "" (item :: later)).toList =
      (compact item).toList ++
        if later = [] then [] else ',' :: (appendItems "" later).toList := by
  cases later with
  | nil => simp [appendItems, compact]
  | cons second rest =>
    rw [appendItems_cons "" item (List.cons_ne_nil _ _), toList_appendItems]
    simp [toList_append "" item]

theorem toList_appendMembers_cons (key : String) (value : Json) (later : List (String × Json)) :
    (appendMembers "" ((key, value) :: later)).toList =
      (Quoted.write key).toList ++ ':' :: ((compact value).toList ++
        if later = [] then [] else ',' :: (appendMembers "" later).toList) := by
  cases later with
  | nil => simp [appendMembers, toList_append _ value]
  | cons second rest =>
    rw [appendMembers_cons "" key value (List.cons_ne_nil _ _), toList_appendMembers]
    simp [toList_append _ value]

theorem isBlank_nil : IsBlank [] :=
  nofun

theorem separated_singleton (text : List Char) : Separated [text] text := by
  have hlast : Separated [text] ([] ++ (text ++ [])) := .last isBlank_nil isBlank_nil
  rwa [List.nil_append, List.append_nil] at hlast

theorem Separated.comma {texts : List (List Char)} {rest : List Char} (h : Separated texts rest)
    (text : List Char) : Separated (text :: texts) (text ++ ',' :: rest) :=
  .cons isBlank_nil isBlank_nil h

/-- Compact text has commas between the items of an array, and no blanks. -/
theorem separated_appendItems {items : List Json} (hne : items ≠ []) :
    Separated (items.map fun item => (compact item).toList) (appendItems "" items).toList := by
  induction items with
  | nil => exact absurd rfl hne
  | cons item later ih =>
    rw [toList_appendItems_cons, List.map_cons]
    split
    · next hlast =>
      subst hlast
      rw [List.append_nil]
      exact separated_singleton _
    · next hmore => exact (ih hmore).comma _

theorem enclosed_compact_array (items : List Json) :
    Enclosed '[' ']' (items.map fun item => (compact item).toList)
      (compact (.array items)).toList := by
  rw [toList_compact_array]
  cases items with
  | nil => exact .empty isBlank_nil
  | cons item later => exact .parts (separated_appendItems (List.cons_ne_nil _ _))

/-- The compact text of a member. -/
def memberText (member : String × Json) : List Char :=
  (Quoted.write member.1).toList ++ ':' :: (compact member.2).toList

theorem joinsMember_memberText (key : String) (value : Json) :
    JoinsMember ((Quoted.write key).toList, (compact value).toList) (memberText (key, value)) :=
  ⟨[], [], isBlank_nil, isBlank_nil, rfl⟩

theorem separated_appendMembers {members : List (String × Json)} (hne : members ≠ []) :
    Separated (members.map memberText) (appendMembers "" members).toList := by
  induction members with
  | nil => exact absurd rfl hne
  | cons member later ih =>
    rw [toList_appendMembers_cons, ← List.cons_append, ← List.append_assoc, List.map_cons]
    split
    · next hlast =>
      subst hlast
      rw [List.append_nil]
      exact separated_singleton _
    · next hmore => exact (ih hmore).comma _

theorem enclosed_compact_object (members : List (String × Json)) :
    Enclosed '\x7b' '\x7d' (members.map memberText) (compact (.object members)).toList := by
  rw [toList_compact_object]
  cases members with
  | nil => exact .empty isBlank_nil
  | cons member later => exact .parts (separated_appendMembers (List.cons_ne_nil _ _))

theorem joins_compact (members : List (String × Json)) :
    List.Forall₂ JoinsMember
      (members.map fun member => ((Quoted.write member.1).toList, (compact member.2).toList))
      (members.map memberText) := by
  rw [List.forall₂_map_left_iff, List.forall₂_map_right_iff, List.forall₂_same]
  exact fun member _ => joinsMember_memberText member.1 member.2

mutual

/-- Compact text is derived by the grammar. -/
theorem isValue_compact (value : Json) (hexact : value.IsExact) :
    IsValue (compact value).toList := by
  cases value with
  | null => exact .word (by decide)
  | bool value => cases value <;> exact .word (by decide)
  | number value =>
    rw [toList_compact_number]
    cases value with
    | int value =>
      exact .number ⟨.ofInt value, Numeral.isWellFormed_ofInt value,
        (Numeral.toList_text_ofInt value).symm⟩
    | real text => exact hexact.elim
  | string value =>
    rw [toList_compact_string]
    exact .string (Quoted.writesString_write value).isString
  | array items =>
    exact .array (List.forall_mem_map.mpr (isValue_items items hexact.2))
      (enclosed_compact_array items)
  | object members =>
    exact .object (List.forall_mem_map.mpr fun member _ =>
        (Quoted.writesString_write member.1).isString)
      (List.forall_mem_map.mpr (isValue_members members hexact.2)) (joins_compact members)
      (enclosed_compact_object members)

theorem isValue_items (items : List Json) (hexact : EveryItem NumberIsExact items) :
    ∀ item ∈ items, IsValue (compact item).toList := by
  match items with
  | [] => nofun
  | item :: later =>
    exact List.forall_mem_cons.mpr ⟨isValue_compact item hexact.1, isValue_items later hexact.2⟩

theorem isValue_members (members : List (String × Json))
    (hexact : EveryMember NumberIsExact members) :
    ∀ member ∈ members, IsValue (compact member.2).toList := by
  match members with
  | [] => nofun
  | (key, value) :: later =>
    exact List.forall_mem_cons.mpr
      ⟨isValue_compact value hexact.1, isValue_members later hexact.2⟩

end

/-! ### Reading a value -/

mutual

/-- The compact text of a value is read as this value. -/
theorem readsAs_compact (value : Json) (hexact : value.IsExact) :
    ReadsAs (compact value).toList (Draft.ofJson value) := by
  cases value with
  | null => exact .of_leaf fun _ _ => rfl
  | bool value =>
    refine .of_leaf fun _ _ => ?_
    cases value <;> rfl
  | number value =>
    rw [toList_compact_number]
    exact .of_leaf fun _ hrest => Token.next?_number hrest hexact
  | string value =>
    rw [toList_compact_string]
    exact .of_string (Token.next?_write value)
  | array items => exact .array (enclosed_compact_array items) (readsAs_items items hexact.2)
  | object members =>
    exact .object (enclosed_compact_object members) (readsAs_members members hexact.2)

theorem readsAs_items (items : List Json) (hexact : EveryItem NumberIsExact items) :
    List.Forall₂ ReadsAs (items.map fun item => (compact item).toList) (Draft.ofItems items) := by
  match items with
  | [] => exact .nil
  | item :: later =>
    exact .cons (readsAs_compact item hexact.1) (readsAs_items later hexact.2)

theorem readsAs_members (members : List (String × Json))
    (hexact : EveryMember NumberIsExact members) :
    List.Forall₂ ReadsAsMember (members.map memberText) (Draft.ofMembers members) := by
  match members with
  | [] => exact .nil
  | (key, value) :: later =>
    exact .cons (.of_joins (joinsMember_memberText key value) (Token.next?_write key)
      (readsAs_compact value hexact.1)) (readsAs_members later hexact.2)

end

/-! ### The value of a draft without faults -/

namespace Draft

mutual

theorem toJson_ofJson (value : Json) : (ofJson value).toJson = .ok value := by
  cases value with
  | array items =>
    simp only [ofJson, toJson, itemsToJson_ofItems items]
    rfl
  | object members =>
    simp only [ofJson, toJson, membersToJson_ofMembers members]
    rfl
  | _ => rfl

theorem itemsToJson_ofItems (items : List Json) : itemsToJson (ofItems items) = .ok items := by
  match items with
  | [] => rfl
  | item :: rest =>
    simp only [ofItems, itemsToJson, toJson_ofJson item, itemsToJson_ofItems rest]
    rfl

theorem membersToJson_ofMembers (members : List (String × Json)) :
    membersToJson (ofMembers members) = .ok members := by
  match members with
  | [] => rfl
  | (key, value) :: rest =>
    simp only [ofMembers, membersToJson, toJson_ofJson value, membersToJson_ofMembers rest]
    rfl

end

theorem ofText_compact {value : Json} (h : value.IsExact) :
    ofText (compact value) = (ofJson value, false) := by
  have hread := (readsAs_compact value h).ofText isBlank_nil isBlank_nil
  rwa [List.nil_append, List.append_nil, String.ofList_toList] at hread

end Draft

/-- The compact text of a value is read as this value. -/
theorem parse_compact {value : Json} (h : value.IsExact) : parse (compact value) = .ok value := by
  rw [parse, Draft.ofText_compact h]
  simp only [Draft.toJson_ofJson]
  rfl

end Json

end SourceMapIndex
