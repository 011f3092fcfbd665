import Webroot.Text.Basic

/-!
# Paths

A path is a text in which slashes separate **components**. Paths are joined and made absolute as
texts; what they lead to is the matter of a file tree.
-/

namespace Webroot.Path

/-- Whether a path starts at the root. -/
def isAbsolute (p : Text) : Bool := p.head? == some '/'

/-- Whether a path ends in a slash. -/
def endsInSlash (p : Text) : Bool := p.getLast? == some '/'

/-- The second path as seen from the first. An absolute second path stands alone. -/
def join (a b : Text) : Text :=
  if isAbsolute b then b
  else if a.isEmpty || endsInSlash a then a ++ b
  else a ++ '/' :: b

/-- The components of a path other than `.`. -/
def components (p : Text) : List Text :=
  (p.splitOn '/').filter fun c => !c.isEmpty && c != ['.']

/-- The absolute form of a path, seen from a working directory: without doubled slashes and
without `.`, but with every `..` and with a slash at the end if there was one. Exactly two
slashes in front are kept. An empty path stays empty. -/
def absolute (workingDirectory p : Text) : Text :=
  if p.isEmpty then p
  else
    let start : Text :=
      if !isAbsolute p then workingDirectory
      else if (Text.after? "//" p).isSome && (Text.after? "///" p).isNone then "//"
      else "/"
    let joined := (components p).foldl join start
    if endsInSlash p then join joined [] else joined

end Webroot.Path
