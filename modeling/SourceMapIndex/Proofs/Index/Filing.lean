import SourceMapIndex.Index.Builder
import SourceMapIndex.Proofs.Tables

/-!
# What an index holds after filing

Filing appends an occurrence at one location of one source and leaves every other location
as it was. After any number of mappings an index therefore holds, at each location, the
occurrences of the mappings that were filed there, in the order in which they were filed.

## Main results

- `Builder.get?_insert` — what one more mapping changes
- `Builder.get?_foldl_insert` — what an index holds after some mappings
- `Builder.get?_ofSources` — a source table alone holds nothing
-/

namespace SourceMapIndex

namespace Shelf

theorem get?_ofSource (source : String) (origin : Location) :
    (ofSource source).get? origin = none := by
  simp [get?, ofSource]

theorem get?_add (shelf : Shelf) (origin other : Location) (occurrence : Occurrence) :
    (shelf.add origin occurrence).get? other =
      if origin = other then some ((shelf.get? origin).getD [] ++ [occurrence])
      else shelf.get? other := by
  simp only [get?, add, Std.TreeMap.getElem?_alter, Std.LawfulEqCmp.compare_eq_iff_eq]
  split
  · cases shelf.locations[origin]? <;> simp
  · rfl

/-- What some shelves hold at a location of a source. -/
def lookup (shelves : List Shelf) (source : String) (origin : Location) :
    Option (List Occurrence) :=
  (shelves.find? (·.source == source)).bind (·.get? origin)

theorem lookup_cons (shelf : Shelf) (rest : List Shelf) (source : String) (origin : Location) :
    lookup (shelf :: rest) source origin =
      if shelf.source = source then shelf.get? origin else lookup rest source origin := by
  by_cases h : shelf.source = source <;> simp [lookup, h]

/-- Filing changes what is held at one location of one source. -/
theorem lookup_file (shelves : List Shelf) (source other : String) (origin place : Location)
    (occurrence : Occurrence) :
    lookup (file source origin occurrence shelves) other place =
      if source = other ∧ origin = place then
        some ((lookup shelves source origin).getD [] ++ [occurrence])
      else lookup shelves other place := by
  induction shelves with
  | nil =>
    have hnil : ∀ source origin, lookup [] source origin = none := fun _ _ => rfl
    have hsource : ((ofSource source).add origin occurrence).source = source := rfl
    simp only [file, lookup_cons, hsource, get?_add, get?_ofSource, hnil]
    by_cases hother : source = other <;> by_cases hplace : origin = place <;> simp [hother, hplace]
  | cons shelf rest ih =>
    by_cases hshelf : shelf.source = source
    · -- the source's own shelf comes first and takes the occurrence
      have hsource : (shelf.add origin occurrence).source = source := hshelf
      simp only [file, if_pos hshelf, lookup_cons, hsource, get?_add]
      by_cases hother : source = other <;> by_cases hplace : origin = place <;>
        simp [hshelf, hother, hplace]
    · simp only [file, if_neg hshelf, lookup_cons, ih]
      by_cases hother : shelf.source = other
      · have hne : source ≠ other := fun h => hshelf (hother.trans h.symm)
        simp [hother, hne]
      · simp [hother]

theorem lookup_map_ofSource (sources : List String) (source : String) (origin : Location) :
    lookup (sources.map ofSource) source origin = none := by
  induction sources with
  | nil => rfl
  | cons first rest ih => simp [lookup_cons, get?_ofSource, ih]

end Shelf

namespace Builder

variable (builder : Builder) (lines : UInt32)

/-- One more mapping appends its occurrence at its origin and changes nothing else. -/
theorem get?_insert (mapping : Resolved) (source : String) (origin : Location) :
    ((builder.insert mapping).finish lines).get? source origin =
      if mapping.source = source ∧ mapping.origin = origin then
        some (((builder.finish lines).get? source origin).getD [] ++ [mapping.occurrence])
      else (builder.finish lines).get? source origin := by
  have hfile := Shelf.lookup_file builder.shelves mapping.source source mapping.origin origin
    mapping.occurrence
  change Shelf.lookup _ source origin = _
  refine hfile.trans ?_
  split
  · next h =>
    rw [h.1, h.2]
    rfl
  · rfl

/-- The occurrences that some mappings have at a location of a source. -/
def filed (mappings : List Resolved) (source : String) (origin : Location) : List Occurrence :=
  (mappings.filter fun mapping => mapping.source = source ∧ mapping.origin = origin).map
    Resolved.occurrence

/-- After some mappings a location holds what it held before and then their occurrences. -/
theorem get?_foldl_insert (mappings : List Resolved) (source : String) (origin : Location) :
    ((mappings.foldl insert builder).finish lines).get? source origin =
      if filed mappings source origin = [] then (builder.finish lines).get? source origin
      else
        some (((builder.finish lines).get? source origin).getD [] ++
          filed mappings source origin) := by
  -- over the mappings still to come, since each appends behind what is held before it
  induction mappings generalizing builder with
  | nil => rfl
  | cons mapping rest ih =>
    rw [List.foldl_cons, ih, get?_insert]
    by_cases h : mapping.source = source ∧ mapping.origin = origin
    · have hfiled : filed (mapping :: rest) source origin =
          mapping.occurrence :: filed rest source origin := by
        simp [filed, h]
      by_cases hrest : filed rest source origin = [] <;> simp [hfiled, h, hrest]
    · have hfiled : filed (mapping :: rest) source origin = filed rest source origin := by
        simp only [filed]
        rw [List.filter_cons_of_neg (by simpa using h)]
      rw [if_neg h, hfiled]

theorem get?_ofSources (sources : List String) (source : String) (origin : Location) :
    ((ofSources sources).finish lines).get? source origin = none :=
  Shelf.lookup_map_ofSource _ source origin

theorem get?_finish (sources : List String) (mappings : List Resolved) (source : String)
    (origin : Location) :
    ((mappings.foldl insert (ofSources sources)).finish lines).get? source origin =
      if filed mappings source origin = [] then none else some (filed mappings source origin) := by
  rw [get?_foldl_insert, get?_ofSources]
  rfl

end Builder

end SourceMapIndex
