import Mathlib.Data.List.Induction
import Mathlib.Data.List.Sort

/-!
# Lists and their distinct members

A list without its repetitions keeps every member where it first stands. A list that is
split up by distinct keys is lost to nothing: its parts together are a permutation of it.

## Main results

- `Distinct.eraseDups_concat` — one more member, new or not
- `Distinct.eq_of_ascending` — ascending lists are told apart by their members
- `Distinct.perm_flatMap_filter` — the parts of a list by distinct keys
-/

namespace SourceMapIndex

namespace Distinct

variable {α β : Type}

section EraseDups

variable [BEq α] [LawfulBEq α]

theorem filter_not_beq {l : List α} {a : α} (h : a ∉ l) : (l.filter fun b => !b == a) = l := by
  rw [List.filter_eq_self]
  intro b hb
  have hne : b ≠ a := fun heq => h (heq ▸ hb)
  simpa using hne

theorem eraseDups_cons_of_not_mem {l : List α} {a : α} (h : a ∉ l) :
    (a :: l).eraseDups = a :: l.eraseDups := by
  rw [List.eraseDups_cons, filter_not_beq h]

theorem eraseDups_concat (l : List α) (a : α) [Decidable (a ∈ l)] :
    (l ++ [a]).eraseDups = if a ∈ l then l.eraseDups else l.eraseDups ++ [a] := by
  rw [List.eraseDups_append]
  by_cases h : a ∈ l <;> simp [List.removeAll, List.eraseDups_cons, h]

theorem nodup_eraseDups (l : List α) : l.eraseDups.Nodup := by
  classical
  induction l using List.reverseRecOn with
  | nil => exact List.nodup_nil
  | append_singleton l a ih =>
    rw [eraseDups_concat]
    split
    · exact ih
    · next h =>
      refine ih.append (List.nodup_singleton a) ?_
      rw [List.disjoint_singleton, List.mem_eraseDups]
      exact h

theorem eraseDups_sublist (l : List α) : l.eraseDups.Sublist l := by
  classical
  induction l using List.reverseRecOn with
  | nil => exact List.Sublist.refl []
  | append_singleton l a ih =>
    rw [eraseDups_concat]
    split
    · exact ih.trans (List.sublist_append_left l [a])
    · exact ih.append (List.Sublist.refl [a])

end EraseDups

/-- Two lists that ascend in the same order and have the same members are the same. -/
theorem eq_of_ascending {r : α → α → Prop} (hasymm : ∀ a b, r a b → ¬r b a) {l m : List α}
    (hl : l.Pairwise r) (hm : m.Pairwise r) (hmem : ∀ a, a ∈ l ↔ a ∈ m) : l = m := by
  have : Std.Antisymm r := ⟨fun a b hab hba => absurd hba (hasymm a b hab)⟩
  have : Std.Irrefl r := ⟨fun a ha => hasymm a a ha ha⟩
  exact hl.eq_of_mem_iff hm hmem

/-- The places of the members of a list without repetitions ascend. -/
theorem pairwise_idxOf_lt [BEq α] [LawfulBEq α] {l : List α} (h : l.Nodup) :
    l.Pairwise fun a b => l.idxOf a < l.idxOf b := by
  rw [List.pairwise_iff_getElem]
  intro i j hi hj hij
  rw [h.idxOf_getElem i hi, h.idxOf_getElem j hj]
  exact hij

theorem pairwise_zipIdx_lt (l : List α) (first : Nat) :
    (l.zipIdx first).Pairwise fun a b => a.2 < b.2 := by
  rw [← List.pairwise_map, List.zipIdx_map_snd]
  exact List.pairwise_lt_range'

/-- The parts of a list by distinct keys, if every member has one of them, make up the whole
list. -/
theorem perm_flatMap_filter [DecidableEq β] (key : α → β) {keys : List β} (hkeys : keys.Nodup)
    {l : List α} (h : ∀ a ∈ l, key a ∈ keys) :
    (keys.flatMap fun k => l.filter fun a => key a = k).Perm l := by
  -- the first key takes its part away, the other keys split what is left
  induction keys generalizing l with
  | nil =>
    have hl : l = [] := List.eq_nil_iff_forall_not_mem.mpr fun a ha => List.not_mem_nil (h a ha)
    rw [hl]
    exact List.Perm.refl []
  | cons first rest ih =>
    obtain ⟨hfirst, hrest⟩ := List.nodup_cons.mp hkeys
    have hleft : ∀ a ∈ l.filter (fun a => !decide (key a = first)), key a ∈ rest := by
      intro a ha
      rw [List.mem_filter, Bool.not_eq_true', decide_eq_false_iff_not] at ha
      exact (List.mem_cons.mp (h a ha.1)).resolve_left ha.2
    have hparts : (rest.flatMap fun k => l.filter fun a => key a = k) =
        rest.flatMap fun k =>
          (l.filter fun a => !decide (key a = first)).filter fun a => key a = k := by
      apply List.flatMap_congr
      intro k hk
      rw [List.filter_filter]
      apply List.filter_congr
      intro a _
      have hne : k ≠ first := fun heq => hfirst (heq ▸ hk)
      by_cases hkey : key a = k <;> simp [hkey, hne]
    rw [List.flatMap_cons, hparts]
    exact ((List.Perm.refl _).append (ih hrest hleft)).trans
      (List.filter_append_perm (fun a => decide (key a = first)) l)

end Distinct

end SourceMapIndex
