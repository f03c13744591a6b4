/-!
# Locations

A source map speaks of places in a generated text and in the sources it came from. Both
kinds of place are a line and a column, counted from zero.

## Main definitions

- `Location` — a line and a column
- `Location.compare` — the order of locations: by line, then by column
- `Location.lineStart`, `Location.lineEnd` — the ends of a line
- `Location.sort`, `Location.greatest?` — a list in that order, and its last member
- `Occurrence` — a location in the generated text, with the symbol that stands there, if any
- `Occurrence.withName` — the same place with a name

## Main results

- `Location.between_ends_iff` — what a line's ends enclose
- `Location.greatest?_eq_getLast?_sort` — the greatest of some locations is their last
-/

namespace SourceMapIndex

/-- A place in a text: a line and a column, both counted from zero. -/
structure Location where
  /-- The line. -/
  line : UInt32 := 0
  /-- The column in that line. -/
  column : UInt32 := 0
deriving DecidableEq, Inhabited

namespace Location

/-- Locations in the order of the text: by line, then by column. -/
def compare (a b : Location) : Ordering :=
  compareLex (compareOn Location.line) (compareOn Location.column) a b

instance : Ord Location where
  compare := Location.compare

/-- A location comes before another one, or is the same. -/
instance : LE Location where
  le a b := a.line < b.line ∨ a.line = b.line ∧ a.column ≤ b.column

instance (a b : Location) : Decidable (a ≤ b) :=
  inferInstanceAs (Decidable (a.line < b.line ∨ a.line = b.line ∧ a.column ≤ b.column))

/-- A location comes before another one. -/
instance : LT Location where
  lt a b := a.line < b.line ∨ a.line = b.line ∧ a.column < b.column

instance : Std.TransCmp Location.compare :=
  inferInstanceAs (Std.TransCmp (compareLex (compareOn Location.line) (compareOn Location.column)))

instance : Std.TransOrd Location :=
  inferInstanceAs (Std.TransCmp Location.compare)

/-- Only equal locations compare as equal. -/
theorem eq_of_compare_eq {a b : Location} (h : Location.compare a b = .eq) : a = b := by
  obtain ⟨hline, hcolumn⟩ := compareLex_eq_eq.mp h
  cases a
  cases b
  simp_all [compareOn]

instance : Std.LawfulEqCmp Location.compare where
  eq_of_compare := eq_of_compare_eq

/-- The comparison and the order of locations agree. -/
theorem isLE_compare_iff {a b : Location} : (Location.compare a b).isLE ↔ a ≤ b := by
  change ((Ord.compare a.line b.line).then (Ord.compare a.column b.column)).isLE ↔
    a.line < b.line ∨ a.line = b.line ∧ a.column ≤ b.column
  rw [Ordering.isLE_then_iff_or, Std.compare_eq_lt, Std.compare_eq_iff_eq, Std.isLE_compare]

theorem compare_eq_lt_iff {a b : Location} : Location.compare a b = .lt ↔ a < b := by
  change (Ord.compare a.line b.line).then (Ord.compare a.column b.column) = .lt ↔
    a.line < b.line ∨ a.line = b.line ∧ a.column < b.column
  rw [Ordering.then_eq_lt, Std.compare_eq_lt, Std.compare_eq_lt, Std.compare_eq_iff_eq]

theorem le_trans {a b c : Location} (hab : a ≤ b) (hbc : b ≤ c) : a ≤ c :=
  isLE_compare_iff.mp
    (Std.TransCmp.isLE_trans (isLE_compare_iff.mpr hab) (isLE_compare_iff.mpr hbc))

instance : Trans (fun a b : Location => a ≤ b) (fun a b => a ≤ b) (fun a b => a ≤ b) where
  trans := le_trans

theorem le_total (a b : Location) : a ≤ b ∨ b ≤ a := by
  have hswap : Location.compare b a = (Location.compare a b).swap := Std.OrientedCmp.eq_swap
  rw [← isLE_compare_iff, ← isLE_compare_iff, hswap]
  cases Location.compare a b <;> decide

theorem le_refl (a : Location) : a ≤ a :=
  (le_total a a).elim id id

theorem le_antisymm {a b : Location} (hab : a ≤ b) (hba : b ≤ a) : a = b :=
  eq_of_compare_eq <|
    Std.OrientedCmp.isLE_antisymm (isLE_compare_iff.mpr hab) (isLE_compare_iff.mpr hba)

theorem lt_asymm {a b : Location} (h : a < b) : ¬b < a := by
  rw [← compare_eq_lt_iff] at h ⊢
  have hswap : Location.compare b a = (Location.compare a b).swap := Std.OrientedCmp.eq_swap
  rw [hswap, h]
  decide

/-- Locations under numbers come after each other in one direction only. -/
theorem lex_asymm {a b : Nat × Location} (h : Prod.Lex (· < ·) (· < ·) a b) :
    ¬Prod.Lex (· < ·) (· < ·) b a := by
  rw [Prod.lex_def] at h ⊢
  rcases h with hnumber | ⟨hnumber, hlocation⟩
  · rintro (hback | ⟨hback, -⟩) <;> omega
  · rintro (hback | ⟨-, hback⟩)
    · omega
    · exact lt_asymm hlocation hback

/-- The first location that a line can have. -/
def lineStart (line : UInt32) : Location :=
  ⟨line, 0⟩

/-- The last location that a line can have. -/
def lineEnd (line : UInt32) : Location :=
  ⟨line, UInt32.ofNat (UInt32.size - 1)⟩

theorem le_largest (w : UInt32) : w ≤ UInt32.ofNat (UInt32.size - 1) := by
  have := w.toNat_lt
  rw [UInt32.le_iff_toNat_le]
  change w.toNat ≤ 4294967295
  omega

/-- The locations of a line are those between its ends. -/
theorem between_ends_iff {a : Location} {line : UInt32} :
    lineStart line ≤ a ∧ a ≤ lineEnd line ↔ a.line = line := by
  constructor
  · rintro ⟨hstart | ⟨hstart, -⟩, hend | ⟨hend, -⟩⟩
    · exact absurd hend (UInt32.lt_asymm hstart)
    · exact hend
    · exact hstart.symm
    · exact hend
  · rintro rfl
    exact ⟨Or.inr ⟨rfl, UInt32.zero_le⟩, Or.inr ⟨rfl, le_largest a.column⟩⟩

/-- The first of all locations. -/
def first : Location :=
  lineStart 0

/-- The last of all locations. -/
def last : Location :=
  lineEnd (UInt32.ofNat (UInt32.size - 1))

theorem first_le (a : Location) : first ≤ a := by
  rcases UInt32.lt_or_eq_of_le (UInt32.zero_le : 0 ≤ a.line) with hline | hline
  · exact Or.inl hline
  · exact Or.inr ⟨hline, UInt32.zero_le⟩

theorem le_last (a : Location) : a ≤ last := by
  rcases UInt32.lt_or_eq_of_le (le_largest a.line) with hline | hline
  · exact Or.inl hline
  · exact Or.inr ⟨hline, le_largest a.column⟩

/-- The locations of a list, in the order of the text. -/
def sort (locations : List Location) : List Location :=
  locations.mergeSort fun a b => decide (a ≤ b)

/-- The last location of a list in the order of the text; an empty list has none. -/
def greatest? : List Location → Option Location
  | [] => none
  | a :: rest => some (rest.foldl (fun best b => if best ≤ b then b else best) a)

theorem sort_perm (locations : List Location) : (sort locations).Perm locations :=
  List.mergeSort_perm locations _

theorem pairwise_sort (locations : List Location) : (sort locations).Pairwise (· ≤ ·) := by
  refine (List.pairwise_mergeSort ?_ ?_ locations).imp of_decide_eq_true
  · intro a b c hab hbc
    exact decide_eq_true (le_trans (of_decide_eq_true hab) (of_decide_eq_true hbc))
  · intro a b
    simpa using le_total a b

/-- A walk over a list that keeps the better of two locations ends at one of them, and at one
that none of them goes beyond. -/
theorem foldl_greatest (best : Location) (rest : List Location) :
    rest.foldl (fun best b => if best ≤ b then b else best) best ∈ best :: rest ∧
      ∀ b ∈ best :: rest, b ≤ rest.foldl (fun best b => if best ≤ b then b else best) best := by
  induction rest generalizing best with
  | nil => simpa using le_refl best
  | cons next rest ih =>
    rw [List.foldl_cons]
    by_cases hbetter : best ≤ next
    · obtain ⟨hmem, hle⟩ := ih next
      rw [if_pos hbetter]
      exact ⟨List.mem_cons_of_mem best hmem,
        List.forall_mem_cons.mpr ⟨le_trans hbetter (hle next List.mem_cons_self), hle⟩⟩
    · have hworse := (le_total best next).resolve_left hbetter
      obtain ⟨hmem, hle⟩ := ih best
      obtain ⟨hbest, hrest⟩ := List.forall_mem_cons.mp hle
      rw [if_neg hbetter]
      refine ⟨?_, List.forall_mem_cons.mpr
        ⟨hbest, List.forall_mem_cons.mpr ⟨le_trans hworse hbest, hrest⟩⟩⟩
      rcases List.mem_cons.mp hmem with hsame | hlater
      · rw [hsame]
        exact List.mem_cons_self
      · exact List.mem_cons_of_mem best (List.mem_cons_of_mem next hlater)

/-- The greatest of some locations is the one among them that none of them goes beyond. -/
theorem greatest?_eq_some_iff {locations : List Location} {a : Location} :
    greatest? locations = some a ↔ a ∈ locations ∧ ∀ b ∈ locations, b ≤ a := by
  cases locations with
  | nil => simp [greatest?]
  | cons first rest =>
    obtain ⟨hmem, hle⟩ := foldl_greatest first rest
    rw [greatest?, Option.some.injEq]
    constructor
    · rintro rfl
      exact ⟨hmem, hle⟩
    · rintro ⟨ha, hgreatest⟩
      exact le_antisymm (hgreatest _ hmem) (hle a ha)

/-- The greatest location is the last one in order. -/
theorem greatest?_eq_getLast?_sort (locations : List Location) :
    greatest? locations = (sort locations).getLast? := by
  have hperm := sort_perm locations
  cases hlast : (sort locations).getLast? with
  | none =>
    rw [List.getLast?_eq_none_iff] at hlast
    rw [hlast, List.nil_perm] at hperm
    rw [hperm, greatest?]
  | some a =>
    obtain ⟨before, hbefore⟩ := List.getLast?_eq_some_iff.mp hlast
    have hsorted := pairwise_sort locations
    rw [hbefore, List.pairwise_append] at hsorted
    rw [greatest?_eq_some_iff]
    constructor
    · exact hperm.subset (hbefore ▸ List.mem_append_right before List.mem_cons_self)
    · intro b hb
      rw [← hperm.mem_iff, hbefore] at hb
      rcases List.mem_append.mp hb with hearlier | hsame
      · exact hsorted.2.2 b hearlier a List.mem_cons_self
      · rw [List.mem_singleton.mp hsame]
        exact le_refl a

end Location

/-- A location in the generated text, with the symbol that stands there, if any. -/
structure Occurrence extends Location where
  /-- The symbol's name; the empty name is a name. -/
  name : Option String := none
deriving DecidableEq, Inhabited

namespace Occurrence

/-- The occurrence at the same place with the given name. -/
def withName (o : Occurrence) (name : String) : Occurrence :=
  { o with name := some name }

@[simp]
theorem toLocation_withName (o : Occurrence) (name : String) :
    (o.withName name).toLocation = o.toLocation :=
  rfl

/-- Of two names that are given one after the other the later one counts. -/
@[simp]
theorem withName_withName (o : Occurrence) (earlier later : String) :
    (o.withName earlier).withName later = o.withName later :=
  rfl

end Occurrence

end SourceMapIndex
