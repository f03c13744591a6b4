import SourceMapIndex.Index.Basic
import SourceMapIndex.Json.Compact

/-!
# Indexes and positions as JSON

An index is an object of its mapped sources; a source is an object of its lines, a line one
of its columns, and a column the array of its occurrences. Lines and columns are keys in
decimal digits.

## Main definitions

- `Location.toJson`, `Occurrence.toJson` — positions as objects
- `Shelf.lines` — the entries of a shelf, line by line
- `Index.toJson` — an index as nested objects
-/

namespace SourceMapIndex

/-- A location as an object. -/
def Location.toJson (location : Location) : Json :=
  .object [("line", .ofNat location.line.toNat), ("col", .ofNat location.column.toNat)]

/-- An occurrence as an object; an absent name is left out. -/
def Occurrence.toJson (occurrence : Occurrence) : Json :=
  .object <|
    [("line", .ofNat occurrence.line.toNat), ("col", .ofNat occurrence.column.toNat)]
      ++ (occurrence.name.map fun name => ("name", Json.string name)).toList

namespace Shelf

/-- The lines before which an entry is put: it joins the first of them if it belongs there,
or makes a line of its own. -/
def addToLines (entry : Location × List Occurrence) :
    List (UInt32 × List (UInt32 × List Occurrence)) →
      List (UInt32 × List (UInt32 × List Occurrence))
  | [] => [(entry.1.line, [(entry.1.column, entry.2)])]
  | (line, columns) :: rest =>
    if line = entry.1.line then (line, (entry.1.column, entry.2) :: columns) :: rest
    else (entry.1.line, [(entry.1.column, entry.2)]) :: (line, columns) :: rest

/-- The entries of a shelf, line by line. -/
def lines (shelf : Shelf) : List (UInt32 × List (UInt32 × List Occurrence)) :=
  shelf.entries.foldr addToLines []

/-- The columns of a line as an object. -/
def columnsToJson (columns : List (UInt32 × List Occurrence)) : Json :=
  .object <| columns.map fun (column, occurrences) =>
    (toString column.toNat, .array (occurrences.map Occurrence.toJson))

/-- A shelf as an object of its lines. -/
def toJson (shelf : Shelf) : Json :=
  .object <| shelf.lines.map fun (line, columns) => (toString line.toNat, columnsToJson columns)

end Shelf

/-- An index as an object of the sources that have entries. -/
def Index.toJson (index : Index) : Json :=
  .object <| (index.shelves.filter fun shelf => !shelf.isEmpty).map fun shelf =>
    (shelf.source, shelf.toJson)

end SourceMapIndex
