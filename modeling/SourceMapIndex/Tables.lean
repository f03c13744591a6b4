import SourceMapIndex.Mappings.Cursor

/-!
# Tables

A mapping speaks of its source and its name by their places in two tables. Sources are known
by their path alone: what follows the first question mark is a query, and sources that
differ in their queries are one source.

## Main definitions

- `Source.withoutQuery` — a source without its query
- `Tables` — the sources and the names of a source map
- `Tables.source`, `Tables.name` — the entry at an index
- `Resolved` — a mapping with table entries in place of indices
- `Tables.resolve` — a mapping resolved against the tables
-/

namespace SourceMapIndex

namespace Source

/-- A source without its query: everything from the first question mark on is left out. -/
def withoutQuery (source : String) : String :=
  String.ofList (source.toList.takeWhile (· ≠ '?'))

/-- Only the first question mark counts, wherever it stands. -/
example : withoutQuery "a.js?v=1?w" = "a.js" ∧ withoutQuery "?q" = "" := by decide

end Source

/-- A mapping with the table entries in place of its indices. -/
structure Resolved where
  /-- The source, without a query. -/
  source : String
  /-- The location in that source. -/
  origin : Location
  /-- The location in the generated text. -/
  generated : Location
  /-- The name, if the segment has one. -/
  name : Option String
deriving DecidableEq

/-- The tables of a source map. -/
structure Tables where
  /-- The sources. -/
  sources : Array String
  /-- The names. -/
  names : Array String
deriving DecidableEq

namespace Tables

/-- The entry of a table at an index, which may lie outside the table on either side. -/
def entry? (table : Array String) (index : Int) : Option String :=
  if 0 ≤ index then table[index.toNat]? else none

/-- The source at an index, without its query. -/
def source (tables : Tables) (index : Int) : Except Reason String :=
  match entry? tables.sources index with
  | some source => .ok (Source.withoutQuery source)
  | none => .error (.sourceOutOfRange index tables.sources.size)

/-- The name at an index. -/
def name (tables : Tables) (index : Int) : Except Reason String :=
  match entry? tables.names index with
  | some name => .ok name
  | none => .error (.nameOutOfRange index tables.names.size)

/-- The name at an optional index. -/
def name? (tables : Tables) : Option Int → Except Reason (Option String)
  | none => .ok none
  | some index => (tables.name index).map some

/-- A mapping resolved against the tables; its source is looked up before its name. -/
def resolve (tables : Tables) (mapping : Mapping) : Except Reason Resolved := do
  let source ← tables.source mapping.source
  let name ← tables.name? mapping.name
  return { source, origin := mapping.origin, generated := mapping.generated, name }

end Tables

end SourceMapIndex
