import SourceMapIndex.Mappings.Basic
import SourceMapIndex.Proofs.Text.Parts

/-!
# Mapping strings and their tokens

A mapping string is taken apart twice, into groups and then into tokens. Joining undoes both
steps: the groups are the text again, and the tokens of a group are the group. The other way
round, tokens that are joined are found again at their places, with two exceptions that have
no text of their own. A group of one empty token looks like a blank group, and a single blank
group looks like no groups.

## Main definitions

- `Text.IsParts` — what the parts of a text are
- `Mappings.ofTokens` — the mapping string of some tokens, group by group
- `Mappings.Separable` — tokens that can be told apart when they are joined

## Main results

- `Mappings.groups_ofTokens` — the tokens of joined tokens
- `Mappings.ofTokens_groups` — the text of the tokens of a mapping string
-/

namespace SourceMapIndex

/-- Parts have no separator in them and stand for the whole text, which has one separator less
than parts. Only a blank text has no parts. -/
structure Text.IsParts (separator : Char) (text : String) (parts : List String) : Prop where
  free : ∀ part ∈ parts, separator ∉ part.toList
  join : Text.join separator parts = text
  length : parts.length = if text = "" then 0 else text.toList.count separator + 1

theorem Text.isParts_parts (separator : Char) (text : String) :
    IsParts separator text (parts separator text) where
  free := fun _ hpart hmem => (mem_parts_subset hpart separator hmem).2 rfl
  join := join_parts separator text
  length := length_parts separator text

/-- A group is blank if it has no tokens. -/
theorem Group.isBlank_iff {group : Group} : group.isBlank = true ↔ group.tokens = [] := by
  rw [tokens, Text.parts_eq_nil_iff, isBlank, String.isEmpty_iff]

namespace Mappings

/-- The mapping string whose groups have the given tokens. -/
def ofTokens (groups : List (List String)) : String :=
  Text.join ';' (groups.map (Text.join ','))

/-- Tokens that can be told apart when they are joined, group by group. -/
structure Separable (groups : List (List String)) : Prop where
  free : ∀ tokens ∈ groups, ∀ token ∈ tokens, ',' ∉ token.toList ∧ ';' ∉ token.toList
  /-- The text of one empty token is that of a blank group. -/
  tokens : ∀ tokens ∈ groups, tokens ≠ [""]
  /-- The text of one blank group is that of no groups. -/
  groups : groups ≠ [[]]

theorem map_text_groups (mappings : String) :
    (groups mappings).map Group.text = Text.parts ';' mappings := by
  rw [groups, List.map_map]
  exact List.zipIdx_map_fst 0 (Text.parts ';' mappings)

theorem map_tokens_groups (mappings : String) :
    (groups mappings).map Group.tokens = (Text.parts ';' mappings).map (Text.parts ',') := by
  rw [← map_text_groups, List.map_map]
  rfl

theorem line_of_getElem?_groups {mappings : String} {i : Nat} {group : Group}
    (h : (groups mappings)[i]? = some group) : group.line.toNat = min i 4294967295 := by
  rw [groups, List.getElem?_map, List.getElem?_zipIdx] at h
  obtain ⟨_, hpart, rfl⟩ := Option.map_eq_some_iff.mp h
  obtain ⟨text, -, rfl⟩ := Option.map_eq_some_iff.mp hpart
  rw [Nat.zero_add]
  exact Word.toNat_saturate i

/-- The tokens of a mapping string, joined, are the mapping string. -/
theorem ofTokens_groups (mappings : String) :
    ofTokens ((groups mappings).map Group.tokens) = mappings := by
  have hjoin : Text.join ',' ∘ Text.parts ',' = id := funext (Text.join_parts ',')
  rw [ofTokens, map_tokens_groups, List.map_map, hjoin, List.map_id, Text.join_parts]

theorem separable_groups (mappings : String) : Separable ((groups mappings).map Group.tokens) where
  free := by
    rw [map_tokens_groups]
    intro tokens htokens token htoken
    obtain ⟨text, htext, rfl⟩ := List.mem_map.mp htokens
    have hchars := Text.mem_parts_subset htoken
    -- a token has no other characters than its group, which has no semicolon
    exact ⟨fun hcomma => (hchars ',' hcomma).2 rfl, fun hsemicolon =>
      (Text.mem_parts_subset htext ';' (hchars ';' hsemicolon).1).2 rfl⟩
  tokens := by
    intro tokens htokens
    obtain ⟨group, -, rfl⟩ := List.mem_map.mp htokens
    exact Text.parts_ne_singleton ',' group.text
  groups := by
    rw [map_tokens_groups]
    intro hblank
    obtain ⟨text, hparts, htext⟩ := List.map_eq_singleton_iff.mp hblank
    exact Text.parts_ne_singleton ';' mappings (Text.parts_eq_nil_iff.mp htext ▸ hparts)

/-- Tokens that can be told apart are the tokens of their mapping string. -/
theorem groups_ofTokens {lines : List (List String)} (h : Separable lines) :
    (groups (ofTokens lines)).map Group.tokens = lines := by
  have hfree : ∀ text ∈ lines.map (Text.join ','), ';' ∉ text.toList := by
    intro text htext
    obtain ⟨tokens, htokens, rfl⟩ := List.mem_map.mp htext
    exact Text.not_mem_join (by decide) fun token htoken => (h.free tokens htokens token htoken).2
  have hblank : lines.map (Text.join ',') ≠ [""] := by
    intro hsingle
    obtain ⟨tokens, rfl, hempty⟩ := List.map_eq_singleton_iff.mp hsingle
    rcases Text.join_eq_empty_iff.mp hempty with rfl | rfl
    · exact h.groups rfl
    · exact h.tokens [""] List.mem_cons_self rfl
  rw [map_tokens_groups, ofTokens, Text.parts_join hfree hblank, List.map_map]
  refine (List.map_congr_left fun tokens htokens => ?_).trans (List.map_id lines)
  exact Text.parts_join (fun token htoken => (h.free tokens htokens token htoken).1)
    (h.tokens tokens htokens)

/-- Taking a mapping string apart and joining are inverse to each other. The groups of a text
and the tokens of a group are their parts, groups being counted as far as words go. Joined
again, the tokens are the text, and they can be told apart in it; tokens that can be told apart
are found again in their text, group by group. -/
theorem taking_apart_inverts_joining :
    (∀ mappings, Text.IsParts ';' mappings ((groups mappings).map Group.text) ∧
      (∀ (i : Nat) group, (groups mappings)[i]? = some group →
        group.line.toNat = min i 4294967295)) ∧
    (∀ group : Group, Text.IsParts ',' group.text group.tokens) ∧
    (∀ mappings, Separable ((groups mappings).map Group.tokens) ∧
      ofTokens ((groups mappings).map Group.tokens) = mappings) ∧
    ∀ lines, Separable lines → (groups (ofTokens lines)).map Group.tokens = lines := by
  refine ⟨fun mappings => ⟨?_, fun i group => line_of_getElem?_groups⟩,
    fun group => Text.isParts_parts ',' group.text,
    fun mappings => ⟨separable_groups mappings, ofTokens_groups mappings⟩,
    fun lines => groups_ofTokens⟩
  rw [map_text_groups]
  exact Text.isParts_parts ';' mappings

/-- Blank groups at both ends, a group that begins and ends with an empty token, and a group of
empty tokens alone. -/
theorem taking_apart_inverts_joining_blank :
    let lines := [[], ["", "AAAA", ""], ["", ""], []]
    Separable lines ∧ ofTokens lines = ";,AAAA,;,;" ∧
      (groups ";,AAAA,;,;").map Group.tokens = lines := by
  intro lines
  have hlines : Separable lines := ⟨by decide, by decide, by decide⟩
  have htext : ofTokens lines = ";,AAAA,;,;" := by cbv
  have hinverse := taking_apart_inverts_joining.2.2.2 lines hlines
  exact ⟨hlines, htext, htext ▸ hinverse⟩

end Mappings

end SourceMapIndex
