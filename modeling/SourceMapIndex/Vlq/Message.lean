import SourceMapIndex.Text.Quoted
import SourceMapIndex.Vlq.Basic

/-!
# Messages of the faults of variable-length quantities

## Main definitions

- `Vlq.Fault.message` — a fault in words
-/

namespace SourceMapIndex

namespace Vlq

namespace Fault

/-- A fault in words. -/
def message : Fault → String
  | .invalidChar char offset =>
    "invalid base64 character " ++ Text.quoted char ++ " at offset " ++ toString offset
  | .unterminated => "unterminated continuation sequence"
  | .overflow => "value does not fit in 32 bits"

end Fault

end Vlq

end SourceMapIndex
