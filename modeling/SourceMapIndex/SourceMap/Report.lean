import SourceMapIndex.SourceMap.Build
import SourceMapIndex.Json.Compact

/-!
# The log of a build

A build tells what it was given when it starts, what it finds on the way, and how it ends.

## Main definitions

- `Span` — what is known of a build when it starts
- `Span.name`, `Span.level`, `Span.fields` — how a span is written
- `Event` — what a build tells of its course
- `Event.level`, `Event.message`, `Event.fields` — how an event is written
- `SourceMap.report` — a build with its log
-/

namespace SourceMapIndex

/-- How much attention a span or an event asks for. -/
inductive Level where
  | debug
  | trace
deriving DecidableEq

/-- What is known of a build when it starts. -/
structure Span where
  /-- The name of the generated file. -/
  file : Option String
  /-- The number of sources in the table. -/
  sources : Nat
  /-- The number of names in the table. -/
  names : Nat
deriving DecidableEq

namespace Span

/-- The name of a span; all builds have the same. -/
def name (_span : Span) : String :=
  "build_reverse_index_with_options"

/-- How much attention a span asks for. -/
def level (_span : Span) : Level :=
  .debug

/-- The fields of a span; an absent file is left out. -/
def fields (span : Span) : List (String × Json) :=
  (span.file.map fun file => ("file", Json.string file)).toList
    ++ [("sources", .ofNat span.sources), ("names", .ofNat span.names)]

end Span

/-- What a build tells of its course. -/
inductive Event where
  /-- A token was empty. -/
  | emptyToken (line : UInt32) (segment : Nat)
  /-- The index is complete. -/
  | built (generatedLines : UInt32) (locations mappings : Nat)
  /-- The build failed, with the message of the failure. -/
  | failed (message : String)
deriving DecidableEq

namespace Event

/-- The event that ends a build. -/
def ofResult : Except Failure Index → Event
  | .ok index => .built index.generatedLines index.size index.mappingCount
  | .error failure => .failed failure.message

/-- How much attention an event asks for. -/
def level : Event → Level
  | .emptyToken .. => .trace
  | .built .. | .failed .. => .debug

/-- What an event says. -/
def message : Event → String
  | .emptyToken .. => "empty segment token"
  | .built .. => "built reverse index"
  | .failed .. => "source map decode failed"

/-- The fields of an event, besides its message. -/
def fields : Event → List (String × Json)
  | .emptyToken line segment => [("line", .ofNat line.toNat), ("segment", .ofNat segment)]
  | .built generatedLines locations mappings =>
    [("generated_lines", .ofNat generatedLines.toNat), ("locations", .ofNat locations),
      ("mappings", .ofNat mappings)]
  | .failed message => [("error", .string message)]

end Event

/-- A build with its log. -/
structure Report where
  /-- What was known at the start. -/
  span : Span
  /-- What happened, in its order. -/
  events : List Event
  /-- The index, or the failure. -/
  result : Except Failure Index

namespace SourceMap

/-- What is known of a source map when its build starts. -/
def span (map : SourceMap) : Span where
  file := map.file
  sources := map.sources.size
  names := map.names.size

/-- The build of a source map with its log: the empty tokens it met, then its result. -/
def report (map : SourceMap) (options : Options) : Report :=
  let (result, emptyTokens) := map.build options
  { span := map.span
    events := (emptyTokens.map fun (line, segment) => .emptyToken line segment)
      ++ [Event.ofResult result]
    result }

end SourceMap

end SourceMapIndex
