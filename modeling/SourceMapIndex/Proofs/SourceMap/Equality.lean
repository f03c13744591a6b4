import Mathlib
import SourceMapIndex.Proofs.Index.Agreement
import SourceMapIndex.Proofs.SourceMap.Build

/-!
# Indexes of source maps that are the same

Indexes of two source maps may be the same although the maps are not. They then agree place
by place, and they answer alike exactly if the places are those of the same sources. This is
not so for all of them: the comparison takes no notice of the order of the source tables,
while the entries are known by places in these tables.

## Main results

- `SourceMap.answersAlike_iff_of_beq` — when indexes that are the same answer alike
- `SourceMap.beq_of_swapped_sources` — two that are the same and do not
-/

namespace SourceMapIndex

namespace SourceMap

variable {map other : SourceMap} {options otherOptions : Options} {a b : Index}

theorem nodup_sourceTable_of_index (h : map.index options = .ok a) : a.sourceTable.Nodup :=
  (isFiled_of_index h).nodup_sourceTable

/-- Two indexes of source maps that are the same have source tables with the same members and
hold the same at equal places. They answer alike if and only if the tables are in the same
order. -/
theorem answersAlike_iff_of_beq (ha : map.index options = .ok a)
    (hb : other.index otherOptions = .ok b) (h : (a == b) = true) :
    (a.AnswersAlike b ↔ a.sourceTable = b.sourceTable) ∧
      a.sourceTable.Perm b.sourceTable ∧
      (∀ (i : Nat) (source otherSource : String), a.sourceTable[i]? = some source →
        b.sourceTable[i]? = some otherSource → a.SameUnder b source otherSource) ∧
      a.generatedLines = b.generatedLines ∧ a.mappingCount = b.mappingCount := by
  have hatable := nodup_sourceTable_of_index ha
  have hbtable := nodup_sourceTable_of_index hb
  obtain ⟨hmembers, _, hlines, hcount⟩ := Index.beq_iff.mp h
  refine ⟨⟨fun halike => halike.sourceTable, Index.answersAlike_of_beq hatable hbtable h⟩,
    Index.perm_of_sameMembers hatable hmembers, ?_, hlines, hcount⟩
  intro i source otherSource hsource hother
  exact Index.sameUnder_of_beq hatable hbtable h hsource hother

/-- Queries and short segments do not show in an index: the two indexes are the same and
answer alike. -/
theorem answersAlike_of_queries :
    let map := ofMappings "AAAA,CAAA" #["a.js?x", "b.js"] #[]
    let other := ofMappings "A,C" #["a.js", "b.js?y"] #[]
    ∃ a b, map.index = .ok a ∧ other.index = .ok b ∧ (a == b) = true ∧ a.AnswersAlike b := by
  intro map other
  have hboth : (map.index.toOption.bind fun a => other.index.toOption.map fun b =>
      (a == b, decide (a.sourceTable = b.sourceTable))) = some (true, true) := by
    cbv
  obtain ⟨a, ha, hother⟩ := Option.bind_eq_some_iff.mp hboth
  obtain ⟨b, hb, hanswer⟩ := Option.map_eq_some_iff.mp hother
  obtain ⟨hbeq, htable⟩ := Prod.mk.inj hanswer
  refine ⟨a, b, index_of_toOption ha, index_of_toOption hb, hbeq, ?_⟩
  exact (answersAlike_iff_of_beq (index_of_toOption ha) (index_of_toOption hb) hbeq).1.mpr
    (of_decide_eq_true htable)

/-- With the sources of a map in another order the index is the same, but it answers for the
other source. -/
theorem beq_of_swapped_sources :
    let map := ofMappings "AAAA" #["a.js", "b.js"] #[]
    let other := ofMappings "AAAA" #["b.js", "a.js"] #[]
    ∃ a b, map.index = .ok a ∧ other.index = .ok b ∧ (a == b) = true ∧
      a.get? "a.js" ⟨0, 0⟩ = some [⟨⟨0, 0⟩, none⟩] ∧ b.get? "a.js" ⟨0, 0⟩ = none ∧
        ¬a.AnswersAlike b := by
  intro map other
  have hboth : (map.index.toOption.bind fun a => other.index.toOption.map fun b =>
      (a == b, a.get? "a.js" ⟨0, 0⟩, b.get? "a.js" ⟨0, 0⟩)) =
        some (true, some [⟨⟨0, 0⟩, none⟩], none) := by
    cbv
  obtain ⟨a, ha, hrest⟩ := Option.bind_eq_some_iff.mp hboth
  obtain ⟨b, hb, hanswer⟩ := Option.map_eq_some_iff.mp hrest
  obtain ⟨hbeq, hgets⟩ := Prod.mk.inj hanswer
  obtain ⟨hget, hother⟩ := Prod.mk.inj hgets
  refine ⟨a, b, index_of_toOption ha, index_of_toOption hb, hbeq, hget, hother, ?_⟩
  intro halike
  rw [(halike.sameUnder "a.js").get?, hother] at hget
  cases hget

end SourceMap

end SourceMapIndex
