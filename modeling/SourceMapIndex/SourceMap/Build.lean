import SourceMapIndex.Mappings.Decoding
import SourceMapIndex.Index.Builder
import SourceMapIndex.SourceMap.Basic

/-!
# The index of a source map

Decodes the mapping string of a source map, resolves every mapping against the tables and
files it. The build is all or nothing: the first segment that cannot be read or resolved
fails it.

## Main definitions

- `Builder.receive` — a mapping on its way from the decoder to its shelf
- `SourceMap.build` — the index of a source map, with the places of the empty tokens met
- `SourceMap.index` — the index of a source map
-/

namespace SourceMapIndex

/-- The builder after a mapping is resolved and filed. One that cannot be resolved fails at
its own segment, which is the last that was read. -/
def Builder.receive (tables : Tables) (builder : Builder) (mapping : Mapping)
    (progress : Decoder.Progress) : Except Failure Builder :=
  match tables.resolve mapping with
  | .error reason => .error ⟨reason, progress.lastSegment.1, progress.lastSegment.2⟩
  | .ok resolved => .ok (builder.insert resolved)

namespace SourceMap

/-- The declared version of a source map, if it is one that the options refuse. -/
def refusedVersion? (map : SourceMap) (options : Options) : Option UInt32 :=
  if options.checkVersion then map.version.filter (· ≠ supportedVersion) else none

/-- The index of a source map, with the places of the empty tokens that were met. -/
def build (map : SourceMap) (options : Options) : Except Failure Index × List (UInt32 × Nat) :=
  match map.refusedVersion? options with
  | some version => (.error ⟨.unsupportedVersion version, 0, 0⟩, [])
  | none =>
    let outcome :=
      Decoder.run (Builder.receive map.tables) (Mappings.steps map.mappings) {}
        (Builder.ofSources map.sources.toList)
    match outcome.failure with
    | some failure => (.error failure, outcome.progress.emptyTokens)
    | none => (.ok (outcome.state.finish outcome.progress.lineCount), outcome.progress.emptyTokens)

/-- The index of a source map. -/
def index (map : SourceMap) (options : Options := {}) : Except Failure Index :=
  (map.build options).1

end SourceMap

end SourceMapIndex
