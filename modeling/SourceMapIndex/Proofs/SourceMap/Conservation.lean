import Mathlib
import SourceMapIndex.Proofs.Index.Grouping
import SourceMapIndex.Proofs.Mappings.Concatenation
import SourceMapIndex.Proofs.Mappings.Deltas
import SourceMapIndex.Proofs.Mappings.Order
import SourceMapIndex.Proofs.SourceMap.Meaning

/-!
# Conservation of occurrences

An index turns a mapping string around: what stands together in a generated line is filed
under the locations that it came from. Nothing is lost on the way and nothing comes up twice.
Every generated line has as many occurrences in the whole index as its group has tokens.

## Main definitions

- `Index.occurrences` — the occurrences of all entries
- `Mappings.tokenCount` — the number of tokens of a group
- `Index.Conserves` — an index has one occurrence for every token, in the line of its group

## Main results

- `Mappings.filter_tokens` — the tokens of a group among those of the mapping string
- `SourceMap.perm_occurrences` — the occurrences of an index are those of the mappings
- `SourceMap.index_conserves` — every index of a source map conserves its tokens
-/

namespace SourceMapIndex

namespace Mappings

/-- The number of tokens of the group with a number, counted from zero. A group that the
mapping string does not have has none. -/
def tokenCount (mappings : String) (g : Nat) : Nat :=
  ((groups mappings)[g]?.map fun group => group.tokens.length).getD 0

theorem filter_tokensFrom (first : Nat) (texts : List String) (g : Nat) :
    ((texts.zipIdx first).flatMap fun (text, n) => tokensOf n text).filter
        (fun token => token.group = first + g) =
      (texts[g]?.map (tokensOf (first + g))).getD [] := by
  induction texts generalizing first g with
  | nil => rfl
  | cons text rest ih =>
    rw [List.zipIdx_cons, List.flatMap_cons, List.filter_append]
    cases g with
    | zero =>
      -- the tokens of the first group are kept, all later ones have larger numbers
      have hfirst : (tokensOf first text).filter (fun token => token.group = first + 0) =
          tokensOf first text := by
        rw [List.filter_eq_self]
        exact fun token htoken => decide_eq_true (group_of_mem_tokensOf htoken)
      have hrest : ((rest.zipIdx (first + 1)).flatMap fun (text, n) => tokensOf n text).filter
          (fun token => token.group = first + 0) = [] := by
        rw [List.filter_eq_nil_iff]
        intro token htoken
        obtain ⟨⟨text, n⟩, hn, hof⟩ := List.mem_flatMap.mp htoken
        have hle := (List.mem_zipIdx hn).1
        have hgroup := group_of_mem_tokensOf hof
        rw [decide_eq_true_eq]
        omega
      rw [hfirst, hrest, List.append_nil]
      rfl
    | succ g =>
      have hfirst : (tokensOf first text).filter (fun token => token.group = first + (g + 1)) =
          [] := by
        rw [List.filter_eq_nil_iff]
        intro token htoken
        rw [group_of_mem_tokensOf htoken, decide_eq_true_eq]
        omega
      have hnumber : first + (g + 1) = first + 1 + g := by omega
      rw [hfirst, List.nil_append, hnumber, ih (first + 1) g]
      rfl

/-- The tokens with a group number are those of the part of the mapping string there. -/
theorem filter_tokens (mappings : String) (g : Nat) :
    (tokens mappings).filter (fun token => token.group = g) =
      ((Text.parts ';' mappings)[g]?.map (tokensOf g)).getD [] := by
  simpa [tokens] using filter_tokensFrom 0 (Text.parts ';' mappings) g

theorem count_group_tokens (mappings : String) (g : Nat) :
    ((tokens mappings).map Token.group).count g = tokenCount mappings g := by
  rw [List.count, List.countP_map, List.countP_eq_length_filter]
  have hfilter := filter_tokens mappings g
  simp only [Function.comp_def, beq_eq_decide]
  rw [hfilter, tokenCount, groups, List.getElem?_map, List.getElem?_zipIdx]
  cases (Text.parts ';' mappings)[g]? with
  | none => rfl
  | some text => simp [tokensOf, Group.tokens]

theorem map_text_tokens (mappings : String) :
    (tokens mappings).map Token.text = (groups mappings).flatMap Group.tokens := by
  rw [tokens, groups, List.map_flatMap, List.flatMap_map]
  apply List.flatMap_congr
  rintro ⟨text, n⟩ _
  simp [tokensOf, Group.tokens, Function.comp_def]

/-- There are no groups in a blank mapping string, in another one there is one more than
semicolons. -/
theorem length_groups_eq (mappings : String) :
    (groups mappings).length = if mappings = "" then 0 else mappings.toList.count ';' + 1 := by
  rw [length_groups, Text.length_parts]

end Mappings

open Mappings (Token decode groups tokenCount tokens)

/-- The occurrences of all entries, entry by entry. -/
def Index.occurrences (index : Index) : List Occurrence :=
  index.entries.flatMap Entry.occurrences

/-- An index has one occurrence for every token of the mapping string, in the generated line
of its group. -/
structure Index.Conserves (index : Index) (map : SourceMap) : Prop where
  generatedLines : index.generatedLines.toNat = (groups map.mappings).length
  groupCount : (groups map.mappings).length =
    if map.mappings = "" then 0 else map.mappings.toList.count ';' + 1
  line : ∀ g : Nat, index.occurrences.countP (fun occurrence => occurrence.line.toNat = g) =
    tokenCount map.mappings g
  line_lt : ∀ occurrence ∈ index.occurrences, occurrence.line < index.generatedLines
  mappingCount : index.mappingCount = ((groups map.mappings).flatMap Group.tokens).length
  name : ∀ occurrence ∈ index.occurrences, ∀ name ∈ occurrence.name, name ∈ map.names

namespace Tables

variable {tables : Tables}

theorem map_occurrence_of_map_resolve {mappings : List Mapping} {values : List Resolved}
    (h : mappings.map tables.resolve = values.map .ok) :
    values.map Resolved.occurrence = mappings.map tables.occurrenceOf := by
  have heach := List.forall₂_eq_eq_eq.symm ▸ h
  rw [List.forall₂_map_left_iff, List.forall₂_map_right_iff] at heach
  rw [← List.forall₂_eq_eq_eq, List.forall₂_map_left_iff, List.forall₂_map_right_iff]
  exact heach.flip.imp fun _ _ hresolve => (finds_of_resolve hresolve).2.occurrence

theorem mem_names_of_nameOf? {mapping : Mapping} {name : String}
    (h : tables.nameOf? mapping = some name) : name ∈ tables.names := by
  obtain ⟨index, -, hentry⟩ := Option.bind_eq_some_iff.mp h
  unfold entry? at hentry
  split at hentry
  · exact Array.mem_of_getElem? hentry
  · cases hentry

end Tables

namespace SourceMap

variable {map : SourceMap} {options : Options} {index : Index}

/-- The occurrences of an index are those of the mappings of the mapping string, in another
order. -/
theorem perm_occurrences (h : map.index options = .ok index) :
    index.occurrences.Perm ((decode map.mappings).state.map map.tables.occurrenceOf) := by
  obtain ⟨hread, hindex⟩ := reading_of_index h
  have hresolve := (Decoder.readAll_judgeBy hread).2
  rw [← (Mappings.decode_eq_readAll map.mappings).1] at hresolve
  rw [← Tables.map_occurrence_of_map_resolve hresolve, hindex]
  exact Index.perm_occurrences_ofFiled

/-- Every token has its mapping, and it stands in the line of the token's group. -/
theorem map_line_decode (h : map.index options = .ok index)
    (hgroups : (groups map.mappings).length < 4294967296) :
    (decode map.mappings).state.map (fun mapping => mapping.generated.line.toNat) =
      (tokens map.mappings).map Token.group := by
  have hfailure := (Decoder.readAll_judgeBy (reading_of_index h).1).1
  have hlines := Mappings.map_values_of_failure_eq_none hfailure
    (g := fun token => min token.group 4294967295)
    fun _ _ _ hjudge => (Token.says_of_judge hjudge).generatedLine
  rw [(Mappings.decode_eq_readAll map.mappings).1, hlines]
  apply List.map_congr_left
  intro token htoken
  have hlast := Mappings.group_lt_of_mem_tokens htoken
  rw [Mappings.length_groups] at hgroups
  omega

/-- Every index of a source map whose groups can be told apart by words conserves the tokens
of the mapping string. -/
theorem index_conserves (h : map.index options = .ok index)
    (hgroups : (groups map.mappings).length < 4294967296) : index.Conserves map := by
  have hperm := perm_occurrences h
  have hlines := map_line_decode h hgroups
  have hgeneratedLines : index.generatedLines.toNat = (groups map.mappings).length := by
    rw [(reading_of_index h).2, Mappings.length_groups]
    exact Word.toNat_saturate_of_lt (Mappings.length_groups _ ▸ hgroups)
  refine {
    generatedLines := hgeneratedLines
    groupCount := Mappings.length_groups_eq map.mappings
    line := ?_
    line_lt := ?_
    mappingCount := ?_
    name := ?_ }
  · intro g
    rw [hperm.countP_eq, List.countP_map, ← Mappings.count_group_tokens, ← hlines, List.count,
      List.countP_map]
    simp only [Function.comp_def, beq_eq_decide]
    rfl
  · intro occurrence hoccurrence
    obtain ⟨mapping, hmapping, rfl⟩ := List.mem_map.mp (hperm.mem_iff.mp hoccurrence)
    have hline := List.mem_map_of_mem (f := fun mapping => mapping.generated.line.toNat) hmapping
    rw [hlines] at hline
    obtain ⟨token, htoken, hgroup⟩ := List.mem_map.mp hline
    rw [UInt32.lt_iff_toNat_lt, hgeneratedLines, Mappings.length_groups]
    exact hgroup ▸ Mappings.group_lt_of_mem_tokens htoken
  · obtain ⟨hread, hindex⟩ := reading_of_index h
    have hcount := Mappings.length_readAll_of_failure_eq_none hread
    rw [hindex, ← Mappings.map_text_tokens, List.length_map, ← hcount]
    exact (Builder.mappingCount_foldl_insert _ _).trans (Nat.zero_add _)
  · intro occurrence hoccurrence name hname
    obtain ⟨mapping, -, rfl⟩ := List.mem_map.mp (hperm.mem_iff.mp hoccurrence)
    exact Tables.mem_names_of_nameOf? hname

/-- Blank groups at both ends and between the others, and two lines under one location. -/
theorem index_conserves_blank_groups :
    let map := ofMappings ";AAAAA,CCAA;;CDAA;" #["a.js", "b.js"] #["n"]
    ∃ index, map.index = .ok index ∧ (groups map.mappings).length < 4294967296 ∧
      index.Conserves map ∧ index.generatedLines = 5 ∧
        index.entries = [⟨"a.js", ⟨0, 0⟩, [⟨⟨1, 0⟩, some "n"⟩, ⟨⟨3, 1⟩, none⟩]⟩,
          ⟨"b.js", ⟨0, 0⟩, [⟨⟨1, 1⟩, none⟩]⟩] := by
  intro map
  have hanswer : (map.index.toOption.map fun index => (index.generatedLines, index.entries)) =
      some (5, [⟨"a.js", ⟨0, 0⟩, [⟨⟨1, 0⟩, some "n"⟩, ⟨⟨3, 1⟩, none⟩]⟩,
          ⟨"b.js", ⟨0, 0⟩, [⟨⟨1, 1⟩, none⟩]⟩]) := by
    decide +kernel
  have hgroups : (groups map.mappings).length = 5 := by decide +kernel
  obtain ⟨index, hindex, hfound⟩ := Option.map_eq_some_iff.mp hanswer
  obtain ⟨hlines, hentries⟩ := Prod.mk.inj hfound
  refine ⟨index, index_of_toOption hindex, by omega, ?_, hlines, hentries⟩
  exact index_conserves (index_of_toOption hindex) (by omega)

end SourceMap

end SourceMapIndex
