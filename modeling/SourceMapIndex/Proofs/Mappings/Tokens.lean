import SourceMapIndex.Mappings.Decoding

/-!
# Tokens with their exact places

The steps of a mapping string carry saturated line numbers, since that is what a reading
answers. A statement about all the tokens of a text has to tell their groups apart, however
many there are. Here every token carries the exact number of its group, and the steps of a
text are recovered from such tokens by saturation.

## Main definitions

- `Mappings.Token` — a token with the number of its group and its place there
- `Mappings.tokens` — the tokens of a mapping string in the order of the text
- `Mappings.Place` — the beginning of a group or a token
- `Mappings.places` — the places of a mapping string in the order of the text
- `Mappings.InOrder` — the groups of some places are counted one by one
-/

namespace SourceMapIndex

namespace Mappings

/-- A token of a mapping string with its place in it. -/
structure Token where
  /-- The number of the token's group, counted from zero. -/
  group : Nat
  /-- The place of the token in its group, counted from zero. -/
  segment : Nat
  text : String
deriving DecidableEq

/-- The tokens of the group with the given number. -/
def tokensOf (group : Nat) (text : String) : List Token :=
  (Text.parts ',' text).zipIdx.map fun (token, i) => ⟨group, i, token⟩

theorem group_of_mem_tokensOf {group : Nat} {text : String} {token : Token}
    (h : token ∈ tokensOf group text) : token.group = group := by
  obtain ⟨⟨text, i⟩, _, rfl⟩ := List.mem_map.mp h
  rfl

/-- The tokens of a mapping string, group by group. -/
def tokens (mappings : String) : List Token :=
  (Text.parts ';' mappings).zipIdx.flatMap fun (text, n) => tokensOf n text

theorem length_groups (mappings : String) :
    (groups mappings).length = (Text.parts ';' mappings).length := by
  simp [groups]

/-- A token is found in the group with its number, at its place there. -/
theorem exists_group_of_mem_tokens {mappings : String} {token : Token}
    (h : token ∈ tokens mappings) :
    ∃ group, (groups mappings)[token.group]? = some group ∧
      group.tokens[token.segment]? = some token.text := by
  obtain ⟨⟨text, n⟩, hgroup, htoken⟩ := List.mem_flatMap.mp h
  obtain ⟨⟨part, i⟩, hpart, rfl⟩ := List.mem_map.mp htoken
  rw [List.mem_zipIdx_iff_getElem?] at hgroup hpart
  exact ⟨⟨Word.saturate n, text⟩, by simp [groups, List.getElem?_zipIdx, hgroup], hpart⟩

inductive Place where
  | group (number : Nat)
  | token (token : Token)
deriving DecidableEq

namespace Place

/-- The step at a place; its line is the number of the group as far as words go. -/
def step : Place → Step
  | .group number => .line (Word.saturate number)
  | .token t => .token (Word.saturate t.group) t.segment t.text

def token? : Place → Option Token
  | .group _ => none
  | .token t => some t

def isGroup : Place → Bool
  | .group _ => true
  | .token _ => false

end Place

/-- The places of groups that are counted from `first`. -/
def placesFrom (first : Nat) (texts : List String) : List Place :=
  (texts.zipIdx first).flatMap fun (text, n) => .group n :: (tokensOf n text).map .token

/-- The places of a mapping string in the order of the text. -/
def places (mappings : String) : List Place :=
  placesFrom 0 (Text.parts ';' mappings)

theorem placesFrom_cons (first : Nat) (text : String) (rest : List String) :
    placesFrom first (text :: rest) =
      .group first :: ((tokensOf first text).map .token ++ placesFrom (first + 1) rest) := by
  simp [placesFrom]

/-- The steps of a mapping string are the steps at its places. -/
theorem steps_eq_places (mappings : String) : steps mappings = (places mappings).map Place.step := by
  simp only [steps, groups, places, placesFrom, List.flatMap_map, List.map_flatMap]
  congr 1
  funext ⟨text, n⟩
  simp [stepsOf, Group.tokens, tokensOf, Place.step]

theorem tokens_eq_places (mappings : String) :
    tokens mappings = (places mappings).filterMap Place.token? := by
  simp only [tokens, places, placesFrom, List.filterMap_flatMap]
  congr 1
  funext ⟨text, n⟩
  change tokensOf n text = ((tokensOf n text).map Place.token).filterMap Place.token?
  rw [List.filterMap_map]
  exact List.filterMap_some.symm

theorem length_groups_placesFrom (first : Nat) (texts : List String) :
    ((placesFrom first texts).filter Place.isGroup).length = texts.length := by
  induction texts generalizing first with
  | nil => rfl
  | cons text rest ih =>
    have htokens : ((tokensOf first text).map Place.token).filter Place.isGroup = [] := by
      simp [Place.isGroup]
    rw [placesFrom_cons]
    simp [List.filter_cons, Place.isGroup, htokens, ih (first + 1)]

/-- Once `begun` groups have begun, the next to begin is the one with that number, and every
token belongs to the group before it. -/
def InOrder : Nat → List Place → Prop
  | _, [] => True
  | begun, .group number :: rest => number = begun ∧ InOrder (begun + 1) rest
  | begun, .token token :: rest => token.group + 1 = begun ∧ InOrder begun rest

theorem InOrder.tokens {group : Nat} {rest : List Place} (h : InOrder (group + 1) rest)
    (tokens : List Token) (htokens : ∀ token ∈ tokens, token.group = group) :
    InOrder (group + 1) (tokens.map .token ++ rest) := by
  induction tokens with
  | nil => exact h
  | cons token others ih =>
    refine ⟨?_, ih fun other hother => htokens other (List.mem_cons_of_mem token hother)⟩
    rw [htokens token List.mem_cons_self]

/-- Groups that are counted from `first` stand in order once `first` groups have begun. -/
theorem inOrder_placesFrom (first : Nat) (texts : List String) :
    InOrder first (placesFrom first texts) := by
  induction texts generalizing first with
  | nil => trivial
  | cons text rest ih =>
    -- the first group begins, its tokens follow, then come the groups after it
    rw [placesFrom_cons]
    exact ⟨rfl, (ih (first + 1)).tokens (tokensOf first text) fun _ => group_of_mem_tokensOf⟩

end Mappings

end SourceMapIndex
