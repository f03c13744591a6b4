import SourceMapIndex.Index.Basic
import SourceMapIndex.Tables

/-!
# Building an index

A builder takes resolved mappings one by one and files each under its source and its origin
there. Sources of the table have their shelves from the start, in the order of the table;
another source gets a new shelf behind all others when it first comes up.

## Main definitions

- `Builder` — an index that is being filled
- `Builder.ofSources` — the builder for a source table
- `Builder.insert` — the builder after one more mapping
- `Builder.finish` — the index
-/

namespace SourceMapIndex

namespace Shelf

/-- The shelves after one more occurrence is filed under a source. -/
def file (source : String) (origin : Location) (occurrence : Occurrence) :
    List Shelf → List Shelf
  | [] => [(ofSource source).add origin occurrence]
  | shelf :: rest =>
    if shelf.source = source then shelf.add origin occurrence :: rest
    else shelf :: file source origin occurrence rest

end Shelf

/-- An index that is being filled. -/
structure Builder where
  /-- What is filed under each source so far. -/
  shelves : List Shelf := []
  /-- The number of occurrences filed. -/
  mappingCount : Nat := 0

namespace Builder

instance : Inhabited Builder where
  default := {}

/-- The builder with an empty shelf for every source of a table. Queries are left out first,
and a source that comes up again keeps its first place. -/
def ofSources (sources : List String) : Builder where
  shelves := (sources.map Source.withoutQuery).eraseDups.map Shelf.ofSource

/-- The builder after one more mapping, which is filed under the exact text of its source.
-/
def insert (builder : Builder) (mapping : Resolved) : Builder where
  shelves :=
    Shelf.file mapping.source mapping.origin ⟨mapping.generated, mapping.name⟩ builder.shelves
  mappingCount := builder.mappingCount + 1

/-- The index of a text with the given number of lines. -/
def finish (builder : Builder) (generatedLines : UInt32) : Index where
  shelves := builder.shelves
  generatedLines
  mappingCount := builder.mappingCount

end Builder

end SourceMapIndex
