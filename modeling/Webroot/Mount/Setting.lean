import Webroot.Http.Body
import Webroot.Text.Numeral

/-!
# The setting of an answer

What an answer depends on besides the request and the configuration: the file tree, the time, the
number of the serving process, and whether the server was built to check its sums.
-/

namespace Webroot

open Text

/-- The file tree, the time and the process of an answer, and what the process does with sums that
are too large. -/
structure Setting where
  tree : FileTree
  now : Instant
  process : Nat
  overflow : Http.Overflow := .abort

/-- The boundary between the parts of a body: the second of the minute, its microseconds and the
process. It only has to be unlikely to occur in a file. -/
def Setting.boundary (s : Setting) : Text :=
  decimal (s.now.seconds % 60).toNat ++ "_" ++ decimal (s.now.nanos / 1000) ++ "_"
    ++ decimal s.process

end Webroot
