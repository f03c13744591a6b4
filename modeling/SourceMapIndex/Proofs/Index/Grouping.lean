import SourceMapIndex.Proofs.Index.Filing
import SourceMapIndex.Proofs.Index.Views

/-!
# Filing groups mappings

An index that mappings are filed in one by one is a grouping of these mappings by source and
origin. Its source table begins with the table that it was made for and goes on with the
sources that came up behind it, and no source is in it twice.

## Main definitions

- `Index.ofFiled` — the index of a source table and of mappings filed one by one
- `Index.IsFiled` — an index of this kind
- `Index.Groups` — what a grouping of some mappings behind a source table is

## Main results

- `Index.sourceTable_ofFiled` — the source table of such an index
- `Index.mem_keys_ofFiled` — its locations are those of the mappings
- `Index.groups_ofFiled` — it is a grouping of the mappings
-/

namespace SourceMapIndex

namespace Shelf

theorem map_source_file (source : String) (origin : Location) (occurrence : Occurrence)
    (shelves : List Shelf) :
    (file source origin occurrence shelves).map Shelf.source =
      if source ∈ shelves.map Shelf.source then shelves.map Shelf.source
      else shelves.map Shelf.source ++ [source] := by
  induction shelves with
  | nil => rfl
  | cons shelf rest ih =>
    by_cases hshelf : shelf.source = source
    · simp [file, hshelf, add]
    · have hne : source ≠ shelf.source := Ne.symm hshelf
      simp only [file, if_neg hshelf, List.map_cons, ih, List.mem_cons, hne, false_or]
      split <;> rfl

end Shelf

namespace Builder

variable (lines : UInt32)

/-- A mapping of a new source puts it at the end of the table, another one leaves the table
as it is. -/
theorem sourceTable_insert (builder : Builder) (mapping : Resolved) :
    ((builder.insert mapping).finish lines).sourceTable =
      if mapping.source ∈ (builder.finish lines).sourceTable then
        (builder.finish lines).sourceTable
      else (builder.finish lines).sourceTable ++ [mapping.source] :=
  Shelf.map_source_file mapping.source mapping.origin _ builder.shelves

theorem sourceTable_foldl_insert (mappings : List Resolved) {builder : Builder}
    {before : List String} (h : (builder.finish lines).sourceTable = before.eraseDups) :
    ((mappings.foldl insert builder).finish lines).sourceTable =
      (before ++ mappings.map Resolved.source).eraseDups := by
  induction mappings generalizing builder before with
  | nil => simpa using h
  | cons mapping rest ih =>
    have hstep : ((builder.insert mapping).finish lines).sourceTable =
        (before ++ [mapping.source]).eraseDups := by
      rw [sourceTable_insert, h, Distinct.eraseDups_concat]
      simp only [List.mem_eraseDups]
    rw [List.foldl_cons, ih hstep, List.map_cons, List.append_assoc]
    rfl

theorem sourceTable_ofSources (sources : List String) :
    ((ofSources sources).finish lines).sourceTable =
      (sources.map Source.withoutQuery).eraseDups := by
  have hsource : Shelf.source ∘ Shelf.ofSource = id := rfl
  simp [Index.sourceTable, finish, ofSources, hsource]

theorem mappingCount_foldl_insert (mappings : List Resolved) (builder : Builder) :
    (mappings.foldl insert builder).mappingCount = builder.mappingCount + mappings.length := by
  induction mappings generalizing builder with
  | nil => rfl
  | cons mapping rest ih =>
    rw [List.foldl_cons, ih, List.length_cons]
    simp only [insert]
    omega

end Builder

/-- The origin of a mapping with its source. -/
def Resolved.key (mapping : Resolved) : String × Location :=
  (mapping.source, mapping.origin)

namespace Index

/-- The index of a source table in which mappings were filed one by one. -/
def ofFiled (sources : List String) (mappings : List Resolved) (lines : UInt32) : Index :=
  (mappings.foldl Builder.insert (Builder.ofSources sources)).finish lines

/-- The index was filled by filing mappings one by one, behind some source table. -/
def IsFiled (index : Index) : Prop :=
  ∃ sources mappings lines, index = ofFiled sources mappings lines

/-- What an index is that groups some mappings behind a source table. -/
structure Groups (index : Index) (sources : List String) (mappings : List Resolved) : Prop where
  /-- A location of a source has the occurrences of the mappings with just this source and
  origin, in their order; without such mappings it has none. -/
  get? : ∀ source origin,
    index.get? source origin =
      if Builder.filed mappings source origin = [] then none
      else some (Builder.filed mappings source origin)
  /-- The sources without queries come first, then those of the mappings as they are, each
  where it first comes up. -/
  sourceTable : index.sourceTable =
    (sources.map Source.withoutQuery ++ mappings.map Resolved.source).eraseDups
  /-- There are as many locations as the mappings have different ones. -/
  size : index.size = (mappings.map Resolved.key).eraseDups.length
  mappingCount : index.mappingCount = mappings.length
  /-- The occurrences of all entries are those of the mappings, in another order. -/
  occurrences :
    (index.entries.flatMap Entry.occurrences).Perm (mappings.map Resolved.occurrence)
  isEmpty : index.isEmpty = true ↔ mappings = []

variable (sources : List String) (mappings : List Resolved) (lines : UInt32)

theorem sourceTable_ofFiled :
    (ofFiled sources mappings lines).sourceTable =
      (sources.map Source.withoutQuery ++ mappings.map Resolved.source).eraseDups :=
  Builder.sourceTable_foldl_insert lines mappings (Builder.sourceTable_ofSources lines sources)

theorem nodup_sourceTable_ofFiled : (ofFiled sources mappings lines).sourceTable.Nodup := by
  rw [sourceTable_ofFiled]
  exact Distinct.nodup_eraseDups _

theorem isFiled_ofFiled : (ofFiled sources mappings lines).IsFiled :=
  ⟨sources, mappings, lines, rfl⟩

theorem mappingCount_ofFiled : (ofFiled sources mappings lines).mappingCount = mappings.length := by
  simp only [ofFiled, Builder.finish, Builder.mappingCount_foldl_insert, Builder.ofSources,
    Nat.zero_add]

variable {sources mappings lines}

theorem IsFiled.nodup_sourceTable {index : Index} (h : index.IsFiled) :
    index.sourceTable.Nodup := by
  obtain ⟨sources, mappings, lines, rfl⟩ := h
  exact nodup_sourceTable_ofFiled sources mappings lines

theorem occurrences_of_mem_ofFiled {entry : Entry}
    (h : entry ∈ (ofFiled sources mappings lines).entries) :
    Builder.filed mappings entry.source entry.origin = entry.occurrences ∧
      entry.occurrences ≠ [] := by
  have hget := (get?_eq_some_iff (nodup_sourceTable_ofFiled sources mappings lines)).mpr h
  rw [ofFiled, Builder.get?_finish] at hget
  split at hget
  · cases hget
  · next hne =>
    have hfiled := Option.some.inj hget
    exact ⟨hfiled, hfiled ▸ hne⟩

theorem filed_ne_nil_iff {key : String × Location} :
    Builder.filed mappings key.1 key.2 ≠ [] ↔ key ∈ mappings.map Resolved.key := by
  simp only [Builder.filed, ne_eq, List.map_eq_nil_iff, List.filter_eq_nil_iff, decide_eq_true_eq,
    List.mem_map, Resolved.key, Prod.ext_iff, not_forall, not_not, exists_prop]

theorem mem_keys_ofFiled {key : String × Location} :
    key ∈ (ofFiled sources mappings lines).entries.map Entry.key ↔
      key ∈ mappings.map Resolved.key := by
  rw [← filed_ne_nil_iff]
  constructor
  · intro hkey
    obtain ⟨entry, hentry, rfl⟩ := List.mem_map.mp hkey
    obtain ⟨hfiled, hne⟩ := occurrences_of_mem_ofFiled hentry
    exact fun hnil => hne (hfiled ▸ hnil)
  · intro hne
    have hget : (ofFiled sources mappings lines).get? key.1 key.2 =
        some (Builder.filed mappings key.1 key.2) := by
      rw [ofFiled, Builder.get?_finish, if_neg hne]
    exact List.mem_map.mpr
      ⟨_, (get?_eq_some_iff (nodup_sourceTable_ofFiled sources mappings lines)).mp hget, rfl⟩

theorem size_ofFiled :
    (ofFiled sources mappings lines).size = (mappings.map Resolved.key).eraseDups.length := by
  have hperm : ((ofFiled sources mappings lines).entries.map Entry.key).Perm
      (mappings.map Resolved.key).eraseDups := by
    rw [List.perm_ext_iff_of_nodup
      (nodup_keys (nodup_sourceTable_ofFiled sources mappings lines))
      (Distinct.nodup_eraseDups _)]
    intro key
    rw [mem_keys_ofFiled, List.mem_eraseDups]
  rw [← length_entries, ← hperm.length_eq, List.length_map]

/-- Every mapping is in the entry of its location and in no other. -/
theorem perm_occurrences_ofFiled :
    ((ofFiled sources mappings lines).entries.flatMap Entry.occurrences).Perm
      (mappings.map Resolved.occurrence) := by
  have hfiled : (ofFiled sources mappings lines).entries.flatMap Entry.occurrences =
      (((ofFiled sources mappings lines).entries.map Entry.key).flatMap fun key =>
        mappings.filter fun mapping => mapping.key = key).map Resolved.occurrence := by
    rw [List.map_flatMap, List.flatMap_map]
    apply List.flatMap_congr
    intro entry hentry
    rw [← (occurrences_of_mem_ofFiled hentry).1]
    simp only [Builder.filed, Resolved.key, Entry.key, Prod.mk.injEq]
  rw [hfiled]
  refine (Distinct.perm_flatMap_filter Resolved.key ?_ ?_).map Resolved.occurrence
  · exact nodup_keys (nodup_sourceTable_ofFiled sources mappings lines)
  · intro mapping hmapping
    exact mem_keys_ofFiled.mpr (List.mem_map_of_mem hmapping)

theorem isEmpty_ofFiled_iff :
    (ofFiled sources mappings lines).isEmpty = true ↔ mappings = [] := by
  rw [isEmpty_iff, ← List.map_eq_nil_iff (f := Entry.key), ← List.map_eq_nil_iff (f := Resolved.key)]
  simp only [List.eq_nil_iff_forall_not_mem, mem_keys_ofFiled]

/-- Whatever table a builder starts from and whatever mappings it takes, in the table or not,
the index that it ends with groups these mappings behind that table. -/
theorem groups_ofFiled (sources : List String) (mappings : List Resolved) (lines : UInt32) :
    (ofFiled sources mappings lines).Groups sources mappings where
  get? := Builder.get?_finish lines sources mappings
  sourceTable := sourceTable_ofFiled sources mappings lines
  size := size_ofFiled
  mappingCount := mappingCount_ofFiled sources mappings lines
  occurrences := perm_occurrences_ofFiled
  isEmpty := isEmpty_ofFiled_iff

end Index

end SourceMapIndex
