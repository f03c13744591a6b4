import SourceMapIndex.Index.Json
import SourceMapIndex.Index.Ranked
import SourceMapIndex.Mappings.Encoding
import SourceMapIndex.SourceMap.Report
import SourceMapIndex.Proofs.Mappings.Outcome
import SourceMapIndex.Proofs.Mappings.Sums
import SourceMapIndex.Proofs.Mappings.Tokens
import SourceMapIndex.Proofs.Mappings.Reading
import SourceMapIndex.Proofs.Mappings.Deltas
import SourceMapIndex.Proofs.Json.Scanning
import SourceMapIndex.Proofs.Json.RoundTrip
import SourceMapIndex.Proofs.Vlq.Grammar
import SourceMapIndex.Proofs.Vlq.RoundTrip
import SourceMapIndex.Proofs.Vlq.Shortest
import SourceMapIndex.Proofs.Vlq.Stops
import SourceMapIndex.Proofs.Vlq.Faults
import SourceMapIndex.Proofs.Text.Parts
import SourceMapIndex.Proofs.Mappings.RoundTrip
import SourceMapIndex.Proofs.Tables
import SourceMapIndex.Proofs.Index.Filing
import SourceMapIndex.Proofs.SourceMap.Build
import SourceMapIndex.Proofs.SourceMap.Meaning
import SourceMapIndex.Proofs.SourceMap.FirstFailure
import SourceMapIndex.Proofs.Distinct
import SourceMapIndex.Proofs.Index.Views
import SourceMapIndex.Proofs.Index.Grouping
import SourceMapIndex.Proofs.Index.Agreement
import SourceMapIndex.Proofs.Index.Picture
import SourceMapIndex.Proofs.Index.Text
import SourceMapIndex.Proofs.Index.Observation
import SourceMapIndex.Proofs.Index.Reordering
import SourceMapIndex.Proofs.SourceMap.Conservation
import SourceMapIndex.Proofs.SourceMap.Equality
import SourceMapIndex.Proofs.Mappings.Order
import SourceMapIndex.Proofs.Mappings.Concatenation
import SourceMapIndex.Proofs.Mappings.Turns
import SourceMapIndex.Proofs.SourceMap.Order
import SourceMapIndex.Proofs.SourceMap.Truth
import SourceMapIndex.Proofs.Mappings.Joining
import SourceMapIndex.Proofs.Mappings.Runs
import SourceMapIndex.Proofs.SourceMap.SourceTable
import SourceMapIndex.Proofs.SourceMap.Queries
import SourceMapIndex.Proofs.SourceMap.Growth
import SourceMapIndex.Proofs.Mappings.Bounds
import SourceMapIndex.Proofs.Mappings.Calls
import SourceMapIndex.Proofs.SourceMap.Bounds
import SourceMapIndex.Proofs.Index.Ranks
import SourceMapIndex.Proofs.Index.Shelving
import SourceMapIndex.Proofs.Mappings.Tally
import SourceMapIndex.Proofs.SourceMap.Log
import SourceMapIndex.Proofs.Mappings.Readers
import SourceMapIndex.Proofs.Json.Grammar
import SourceMapIndex.Proofs.Json.Strings
import SourceMapIndex.Proofs.Json.Numerals
import SourceMapIndex.Proofs.Json.Rows
import SourceMapIndex.Proofs.Json.Values
import SourceMapIndex.Proofs.SourceMap.Members
import SourceMapIndex.Proofs.SourceMap.Loading
