import Std.Data.TreeMap
import SourceMapIndex.Location

/-!
# The index

For every location in a source the index holds the places of the generated text that came
from it. It has a shelf for every source, in the order of the source table, and a shelf
holds its locations in the order of the source.

## Main definitions

- `Shelf` — what is filed under one source
- `Index` — the shelves, with the counts of the text they come from
- `Index.get?` — the occurrences of one location
- `Index.entries`, `Index.entriesOf`, `Index.entriesAt` — all entries, those of a source,
  those of a line
- `Index.sourceTable`, `Index.sources` — the sources, all or mapped

## Design notes

A source is known to the index by its place among the shelves, so filing never moves a
shelf. Sources are matched by their full text, and the shelves of a source table carry no
queries.
-/

namespace SourceMapIndex

/-- What is filed under one source. -/
structure Shelf where
  /-- The source. -/
  source : String
  /-- The occurrences of every location that has some, in the order in which they were
  filed. -/
  locations : Std.TreeMap Location (Array Occurrence) Location.compare

namespace Shelf

/-- The shelf of a source under which nothing is filed yet. -/
def ofSource (source : String) : Shelf :=
  ⟨source, ∅⟩

/-- The shelf with one more occurrence at the end of a location. -/
def add (shelf : Shelf) (origin : Location) (occurrence : Occurrence) : Shelf :=
  { shelf with
    locations := shelf.locations.alter origin fun filed =>
      some ((filed.getD #[]).push occurrence) }

/-- The occurrences of a location, if there are some. -/
def get? (shelf : Shelf) (origin : Location) : Option (List Occurrence) :=
  shelf.locations[origin]?.map Array.toList

/-- The locations of the shelf in the order of the source, with their occurrences. -/
def entries (shelf : Shelf) : List (Location × List Occurrence) :=
  shelf.locations.toList.map fun (origin, occurrences) => (origin, occurrences.toList)

/-- The columns of a line of the shelf with their occurrences. The locations of a line are
those from its first to its last. -/
def entriesAt (shelf : Shelf) (line : UInt32) : List (UInt32 × List Occurrence) :=
  (shelf.locations[(Location.lineStart line)...=(Location.lineEnd line)]).toList.map
    fun (origin, occurrences) => (origin.column, occurrences.toList)

/-- The number of locations that have occurrences. -/
def size (shelf : Shelf) : Nat :=
  shelf.locations.size

/-- Whether nothing is filed under the source. -/
def isEmpty (shelf : Shelf) : Bool :=
  shelf.locations.isEmpty

end Shelf

/-- A location in a source, with the places of the generated text that came from it. -/
structure Entry where
  /-- The source of the location. -/
  source : String
  /-- The location. -/
  origin : Location
  /-- The places of the generated text, in the order of the mapping string. -/
  occurrences : List Occurrence
deriving DecidableEq

/-- An index of the places of a generated text by the locations they came from. -/
structure Index where
  /-- What is filed under each source, in the order of the source table. -/
  shelves : List Shelf := []
  /-- The number of lines of the generated text. -/
  generatedLines : UInt32 := 0
  /-- The number of occurrences filed. -/
  mappingCount : Nat := 0

namespace Index

instance : Inhabited Index where
  default := {}

/-- The shelf of a source. -/
def shelf? (index : Index) (source : String) : Option Shelf :=
  index.shelves.find? (·.source == source)

/-- The occurrences of a location in a source, if there are some. -/
def get? (index : Index) (source : String) (origin : Location) : Option (List Occurrence) :=
  (index.shelf? source).bind (·.get? origin)

/-- The number of locations that have occurrences. -/
def size (index : Index) : Nat :=
  index.shelves.foldr (fun shelf rest => shelf.size + rest) 0

/-- Whether no location has occurrences. -/
def isEmpty (index : Index) : Bool :=
  index.shelves.all Shelf.isEmpty

/-- The sources in the order of the table, mapped or not. -/
def sourceTable (index : Index) : List String :=
  index.shelves.map Shelf.source

/-- The sources that have entries, in the order of the table. -/
def sources (index : Index) : List String :=
  (index.shelves.filter fun shelf => !shelf.isEmpty).map Shelf.source

/-- All entries: by source in the order of the table, then by location. -/
def entries (index : Index) : List Entry :=
  index.shelves.flatMap fun shelf =>
    shelf.entries.map fun (origin, occurrences) => ⟨shelf.source, origin, occurrences⟩

/-- The entries of a source, by location. -/
def entriesOf (index : Index) (source : String) : List (Location × List Occurrence) :=
  match index.shelf? source with
  | none => []
  | some shelf => shelf.entries

/-- The entries of a line of a source, by column. -/
def entriesAt (index : Index) (source : String) (line : UInt32) :
    List (UInt32 × List Occurrence) :=
  match index.shelf? source with
  | none => []
  | some shelf => shelf.entriesAt line

/-- Whether two source tables have the same members, in whatever order; a table has no
member twice. -/
def sameMembers (a b : List String) : Bool :=
  a.length == b.length && a.all b.contains

/-- Two indexes are the same if their source tables have the same members, if shelves at the
same place hold the same entries, and if their counts agree. The order of the tables matters
only through the places of the shelves. -/
instance : BEq Index where
  beq a b :=
    sameMembers a.sourceTable b.sourceTable
      && a.shelves.map Shelf.entries == b.shelves.map Shelf.entries
      && a.generatedLines == b.generatedLines
      && a.mappingCount == b.mappingCount

end Index

end SourceMapIndex
