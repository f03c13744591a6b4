import SourceMapIndex.Index.Builder
import SourceMapIndex.Index.Json

/-!
# An index by ranks

The shelves of an index can stand in a single map beside the table of sources. A key of the
map is a rank and a location, where the rank of a source is its place in the table, and the
entries of a source or of a line are a range of keys. Only the way in which it is filled keeps
such an index together: a map could have keys with ranks that the table does not have, and
the entries under these would be given without a source.

## Main definitions

- `Rank.compare` — the order of keys: by rank, then by location
- `Rank.assign` — the rank of a source, which is the next free one if the source is new
- `RankedIndex` — a table, a map and the counts
- `RankedIndex.get?`, `RankedIndex.entries`, `RankedIndex.entriesOf`,
  `RankedIndex.entriesAt` — its answers
- `RankedIndex.toJson` — the index as nested objects
- `RankedBuilder` — such an index that is being filled
-/

namespace SourceMapIndex

namespace Rank

/-- Keys in the order of the map: by rank, then by location. -/
def compare (a b : Nat × Location) : Ordering :=
  compareLex (compareOn Prod.fst) (compareOn Prod.snd) a b

instance : Std.TransCmp Rank.compare :=
  inferInstanceAs (Std.TransCmp (compareLex (compareOn Prod.fst) (compareOn Prod.snd)))

/-- Only equal keys compare as equal. -/
theorem eq_of_compare_eq {a b : Nat × Location} (h : Rank.compare a b = .eq) : a = b := by
  obtain ⟨hrank, horigin⟩ := compareLex_eq_eq.mp h
  exact Prod.ext (Std.LawfulEqCmp.eq_of_compare hrank) (Location.eq_of_compare_eq horigin)

instance : Std.LawfulEqCmp Rank.compare where
  eq_of_compare := eq_of_compare_eq

/-- The rank of a source and the table in which it has this rank: a source that is not in the
table yet is put behind it. -/
def assign (table : List String) (source : String) : Nat × List String :=
  match table.idxOf? source with
  | some rank => (rank, table)
  | none => (table.length, table ++ [source])

end Rank

/-- What stands under each rank and location, in the order in which it was put there. -/
abbrev RankedMap :=
  Std.TreeMap (Nat × Location) (Array Occurrence) Rank.compare

/-- An index of the places of a generated text, with all locations in one map. -/
structure RankedIndex where
  /-- The sources, each at the place that is its rank. -/
  table : List String := []
  /-- The occurrences of every location, under the rank of its source. -/
  map : RankedMap := ∅
  /-- The number of lines of the generated text. -/
  generatedLines : UInt32 := 0
  /-- The number of occurrences put into the map. -/
  mappingCount : Nat := 0

namespace RankedIndex

instance : Inhabited RankedIndex where
  default := {}

/-- The rank of a source of the table. -/
def rank? (index : RankedIndex) (source : String) : Option Nat :=
  index.table.idxOf? source

/-- The keys between two locations of a rank, with their occurrences. -/
def range (index : RankedIndex) (rank : Nat) (first last : Location) :
    List (Location × List Occurrence) :=
  (index.map[(rank, first)...=(rank, last)]).toList.map fun (key, occurrences) =>
    (key.2, occurrences.toList)

/-- What the map has under a rank. -/
def ofRank (index : RankedIndex) (rank : Nat) : List (Location × List Occurrence) :=
  index.range rank Location.first Location.last

/-- What the map has under a rank and a line. -/
def ofLine (index : RankedIndex) (rank : Nat) (line : UInt32) : List (UInt32 × List Occurrence) :=
  (index.range rank (Location.lineStart line) (Location.lineEnd line)).map
    fun (origin, occurrences) => (origin.column, occurrences)

/-- The occurrences of a location in a source, if there are some. -/
def get? (index : RankedIndex) (source : String) (origin : Location) : Option (List Occurrence) :=
  (index.rank? source).bind fun rank => index.map[(rank, origin)]?.map Array.toList

/-- The number of locations that have occurrences. -/
def size (index : RankedIndex) : Nat :=
  index.map.size

/-- Whether no location has occurrences. -/
def isEmpty (index : RankedIndex) : Bool :=
  index.map.isEmpty

/-- The sources in the order of the table, mapped or not. -/
def sourceTable (index : RankedIndex) : List String :=
  index.table

/-- The ranks of the sources that have entries, with the sources. -/
def mapped (index : RankedIndex) : List (String × Nat) :=
  index.table.zipIdx.filter fun (_, rank) => !(index.ofRank rank).isEmpty

/-- The sources that have entries, in the order of the table. -/
def sources (index : RankedIndex) : List String :=
  index.mapped.map Prod.fst

/-- All entries in the order of the map. An entry whose rank is not in the table has the blank
source. -/
def entries (index : RankedIndex) : List Entry :=
  index.map.toList.map fun ((rank, origin), occurrences) =>
    ⟨index.table[rank]?.getD "", origin, occurrences.toList⟩

/-- The entries of a source, by location. -/
def entriesOf (index : RankedIndex) (source : String) : List (Location × List Occurrence) :=
  match index.rank? source with
  | none => []
  | some rank => index.ofRank rank

/-- The entries of a line of a source, by column. -/
def entriesAt (index : RankedIndex) (source : String) (line : UInt32) :
    List (UInt32 × List Occurrence) :=
  match index.rank? source with
  | none => []
  | some rank => index.ofLine rank line

/-- Two indexes are the same if their tables have the same members, in whatever order, and if
their maps and counts are equal. -/
instance : BEq RankedIndex where
  beq a b :=
    Index.sameMembers a.table b.table
      && a.map.toList == b.map.toList
      && a.generatedLines == b.generatedLines
      && a.mappingCount == b.mappingCount

/-- The lines that some entries start, where a line is started by an entry that is not in the
line of the entry before it. -/
def linesFrom (last : Option UInt32) : List (Location × List Occurrence) → List UInt32
  | [] => []
  | (origin, _) :: rest =>
    if last = some origin.line then linesFrom last rest
    else origin.line :: linesFrom (some origin.line) rest

/-- What stands under a rank as an object of its lines. The columns of every line are looked up
anew. -/
def rankToJson (index : RankedIndex) (rank : Nat) : Json :=
  .object <| (linesFrom none (index.ofRank rank)).map fun line =>
    (toString line.toNat, Shelf.columnsToJson (index.ofLine rank line))

/-- An index as an object of the sources that have entries. -/
def toJson (index : RankedIndex) : Json :=
  .object <| index.mapped.map fun (source, rank) => (source, index.rankToJson rank)

end RankedIndex

/-- An index by ranks that is being filled. -/
structure RankedBuilder where
  /-- The sources so far. -/
  table : List String := []
  /-- The occurrences so far. -/
  map : RankedMap := ∅
  /-- The number of occurrences put into the map. -/
  mappingCount : Nat := 0

namespace RankedBuilder

instance : Inhabited RankedBuilder where
  default := {}

/-- The builder with the sources of a table. Queries are left out first, and a source that
comes up again keeps its first rank. -/
def ofSources (sources : List String) : RankedBuilder where
  table :=
    (sources.map Source.withoutQuery).foldl (fun table source => (Rank.assign table source).2) []

/-- The builder after one more mapping, whose occurrence is put at the end of what the map has
under its key. -/
def insert (builder : RankedBuilder) (mapping : Resolved) : RankedBuilder :=
  let (rank, table) := Rank.assign builder.table mapping.source
  { table
    map := builder.map.alter (rank, mapping.origin) fun found =>
      some ((found.getD #[]).push ⟨mapping.generated, mapping.name⟩)
    mappingCount := builder.mappingCount + 1 }

/-- The index of a text with the given number of lines. -/
def finish (builder : RankedBuilder) (generatedLines : UInt32) : RankedIndex where
  table := builder.table
  map := builder.map
  generatedLines
  mappingCount := builder.mappingCount

end RankedBuilder

end SourceMapIndex
