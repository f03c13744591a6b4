import SourceMapIndex.Json.Reading
import SourceMapIndex.Tables

/-!
# Source maps

The members of a source map that an index is built from, and the options of the build. Both
can be read from JSON; members of other names are passed over.

## Main definitions

- `SourceMap` — the members of a source map
- `Options` — what a build demands of a source map
- `SourceMap.reader`, `Options.reader`, `Location.reader` — how they are read
-/

namespace SourceMapIndex

/-- The members of a source map that an index is built from. -/
structure SourceMap where
  /-- The version of the format that the map declares. -/
  version : Option UInt32 := none
  /-- The name of the generated file. -/
  file : Option String := none
  /-- The mapping string. -/
  mappings : String := ""
  /-- The sources. -/
  sources : Array String := #[]
  /-- The names of symbols. -/
  names : Array String := #[]
deriving DecidableEq, Inhabited

/-- What a build demands of a source map. -/
structure Options where
  /-- Whether a declared version has to be the one that is read. -/
  checkVersion : Bool := true
deriving DecidableEq, Inhabited

namespace SourceMap

open Json (Draft Fault Slot)

/-- The version of the format that is read. -/
def supportedVersion : UInt32 := 3

/-- The source map with a mapping string and its tables, which declares the version that is
read. -/
def ofMappings (mappings : String) (sources names : Array String) : SourceMap where
  version := some supportedVersion
  mappings
  sources
  names

/-- The tables of a source map. -/
def tables (map : SourceMap) : Tables where
  sources := map.sources
  names := map.names

/-- The members of a source map. All may be left out. -/
def slots : List (Slot SourceMap) := [
  ⟨"version", false, fun map draft =>
    (draft.asOptional Draft.asWord).map fun version => { map with version }⟩,
  ⟨"file", false, fun map draft =>
    (draft.asOptional Draft.asString).map fun file => { map with file }⟩,
  ⟨"mappings", false, fun map draft =>
    draft.asString.map fun mappings => { map with mappings }⟩,
  ⟨"sources", false, fun map draft =>
    (draft.asList Draft.asString).map fun sources => { map with sources := sources.toArray }⟩,
  ⟨"names", false, fun map draft =>
    (draft.asList Draft.asString).map fun names => { map with names := names.toArray }⟩]

/-- Reads a source map. -/
def reader (draft : Draft) : Except Fault SourceMap :=
  draft.asRecord slots {}

end SourceMap

namespace Options

open Json (Draft Fault Slot)

/-- The members of options. All may be left out. -/
def slots : List (Slot Options) := [
  ⟨"checkVersion", false, fun _ draft => draft.asBool.map fun checkVersion => { checkVersion }⟩]

/-- Reads options. -/
def reader (draft : Draft) : Except Fault Options :=
  draft.asRecord slots {}

end Options

namespace Location

open Json (Draft Fault Slot)

/-- The members of a location. None may be left out. -/
def slots : List (Slot Location) := [
  ⟨"line", true, fun location draft => draft.asWord.map fun line => { location with line }⟩,
  ⟨"col", true, fun location draft => draft.asWord.map fun column => { location with column }⟩]

/-- Reads a location. -/
def reader (draft : Draft) : Except Fault Location :=
  draft.asRecord slots {}

end Location

end SourceMapIndex
