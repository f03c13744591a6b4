import SourceMapIndex.Proofs.Distinct
import SourceMapIndex.Proofs.Index.Observation

/-!
# Mappings in another order

Mappings of different locations do not get in each other's way: the index is the same in
whatever order they are filed. Two things hang on the order. The occurrences of one location
stand as they came, and a source outside the table gets its place when it first comes up.

## Main definitions

- `Reorders` — a list in a new order that leaves members of one key in their order
- `Builder.newSources` — the sources that some mappings put behind a table

## Main results

- `Reorders.filter_eq` — the members of one key are the same in the new order
- `Index.indistinguishable_of_reorders` — the order in which mappings are filed does not show
-/

namespace SourceMapIndex

section Reorders

variable {α β : Type} [DecidableEq β] {key : α → β} {l m : List α}

/-- A list in a new order in which no two members of one key have changed sides. The members
are taken with the places that they had, which tells equal ones apart. -/
def Reorders (key : α → β) (l m : List α) : Prop :=
  ∃ numbered : List (α × Nat), numbered.Perm l.zipIdx ∧ numbered.map Prod.fst = m ∧
    numbered.Pairwise fun a b => key a.1 = key b.1 → a.2 < b.2

/-- The members of one key stand in the new order as they stood before. -/
theorem Reorders.filter_eq (h : Reorders key l m) (k : β) :
    (m.filter fun a => key a = k) = l.filter fun a => key a = k := by
  obtain ⟨numbered, hperm, rfl, horder⟩ := h
  -- with their places they ascend in both lists, and they are the same members
  have hnumbered : (numbered.filter fun a => key a.1 = k) =
      l.zipIdx.filter fun a => key a.1 = k := by
    refine Distinct.eq_of_ascending (r := fun a b => a.2 < b.2) (fun _ _ => Nat.lt_asymm) ?_ ?_ ?_
    · rw [List.pairwise_filter]
      apply horder.imp
      intro a b hlt ha hb
      rw [decide_eq_true_eq] at ha hb
      exact hlt (ha.trans hb.symm)
    · exact (Distinct.pairwise_zipIdx_lt l 0).filter _
    · intro a
      exact (hperm.filter _).mem_iff
  have hplain : (l.zipIdx.map Prod.fst) = l := by simp
  have hmap (rows : List (α × Nat)) : (rows.map Prod.fst).filter (fun a => key a = k) =
      (rows.filter fun a => key a.1 = k).map Prod.fst := List.filter_map
  rw [hmap, hnumbered, ← hmap, hplain]

end Reorders

namespace Builder

/-- The sources of some mappings that are not in a table without queries, each where it first
comes up. -/
def newSources (sources : List String) (mappings : List Resolved) : List String :=
  ((mappings.map Resolved.source).filter fun source =>
    source ∉ sources.map Source.withoutQuery).eraseDups

theorem filed_eq_of_reorders {mappings others : List Resolved}
    (h : Reorders Resolved.key mappings others) (source : String) (origin : Location) :
    filed mappings source origin = filed others source origin := by
  have hkey (l : List Resolved) : filed l source origin =
      (l.filter fun mapping => mapping.key = (source, origin)).map Resolved.occurrence := by
    simp only [filed, Resolved.key, Prod.mk.injEq]
  rw [hkey, hkey, h.filter_eq]

end Builder

namespace Index

/-- The table of an index is the table that it was made for and the new sources behind it. -/
theorem sourceTable_eq_append (sources : List String) (mappings : List Resolved)
    (lines : UInt32) :
    (ofFiled sources mappings lines).sourceTable =
      (sources.map Source.withoutQuery).eraseDups ++ Builder.newSources sources mappings := by
  rw [sourceTable_ofFiled, List.eraseDups_append, Builder.newSources, List.removeAll]
  simp only [List.elem_eq_mem, decide_not]

/-- Mappings can be filed in another order without a trace. Only those of one location have to
stay in their order, and the sources outside the table have to come up in theirs. -/
theorem indistinguishable_of_reorders {sources : List String} {mappings others : List Resolved}
    (horder : Reorders Resolved.key mappings others)
    (hnew : Builder.newSources sources mappings = Builder.newSources sources others)
    (lines : UInt32) :
    (ofFiled sources mappings lines).Indistinguishable (ofFiled sources others lines) := by
  have ha := isFiled_ofFiled sources mappings lines
  have hb := isFiled_ofFiled sources others lines
  have htable : (ofFiled sources mappings lines).sourceTable =
      (ofFiled sources others lines).sourceTable := by
    rw [sourceTable_eq_append, sourceTable_eq_append, hnew]
  have hget (source : String) (origin : Location) :
      (ofFiled sources mappings lines).get? source origin =
        (ofFiled sources others lines).get? source origin := by
    simp only [ofFiled, Builder.get?_finish, Builder.filed_eq_of_reorders horder]
  have hentries := entries_eq_of_get? ha.nodup_sourceTable hb.nodup_sourceTable
    (htable ▸ List.prefix_rfl) hget
  exact indistinguishable_of_entries_eq ha hb htable hentries rfl

/-- `a.js` is in the table. The first mapping of it goes to the front and the second, of the same
location, stays behind it; of the sources that are new, `x.js` stays before `y.js`. -/
theorem indistinguishable_of_reorders_new_sources :
    let x : Resolved := ⟨"x.js", ⟨0, 0⟩, ⟨0, 0⟩, none⟩
    let a : Resolved := ⟨"a.js", ⟨1, 0⟩, ⟨0, 4⟩, some "n"⟩
    let y : Resolved := ⟨"y.js", ⟨0, 0⟩, ⟨1, 0⟩, none⟩
    let b : Resolved := ⟨"a.js", ⟨1, 0⟩, ⟨1, 2⟩, none⟩
    Reorders Resolved.key [x, a, y, b] [a, x, b, y] ∧
      Builder.newSources ["a.js?v=1"] [x, a, y, b] = Builder.newSources ["a.js?v=1"] [a, x, b, y] ∧
        (ofFiled ["a.js?v=1"] [x, a, y, b] 2).Indistinguishable
          (ofFiled ["a.js?v=1"] [a, x, b, y] 2) := by
  intro x a y b
  have horder : Reorders Resolved.key [x, a, y, b] [a, x, b, y] :=
    ⟨[(a, 1), (x, 0), (b, 3), (y, 2)], by decide, rfl, by decide⟩
  have hnew : Builder.newSources ["a.js?v=1"] [x, a, y, b] =
      Builder.newSources ["a.js?v=1"] [a, x, b, y] := by
    cbv
  exact ⟨horder, hnew, indistinguishable_of_reorders horder hnew 2⟩

end Index

end SourceMapIndex
