/-!
What can be wrong with a JSON text. Reading goes through the text once, so the first problem in
text order is the one that is reported.
-/

namespace TorrentHandle.Json

/-- Why a text was not read. -/
inductive Fault where
  /-- The text is not JSON. -/
  | malformed
  /-- The text is JSON, but not of the wanted shape. -/
  | mismatch
  /-- The text ends too early. -/
  | truncated
  deriving DecidableEq, Repr

/-- One word per kind of fault. -/
def Fault.category : Fault → String
  | .malformed => "syntax"
  | .mismatch => "data"
  | .truncated => "eof"

end TorrentHandle.Json
