import Webroot.Text.Basic

/-!
# Request methods
-/

namespace Webroot.Http

/-- The methods that a read-only file service knows. -/
inductive Method where
  | get
  | head
  | post
  | options
  deriving DecidableEq, Repr

namespace Method

/-- The method's name on the request line. -/
def name : Method → Text
  | get => "GET"
  | head => "HEAD"
  | post => "POST"
  | options => "OPTIONS"

/-- All methods. -/
def all : List Method := [get, head, post, options]

/-- The method with this name, in any case of its ASCII letters. -/
def ofName? (t : Text) : Option Method := all.find? fun m => m.name = Text.upper t

@[simp]
theorem ofName?_name (m : Method) : ofName? m.name = some m := by
  cases m <;> rfl

end Method

end Webroot.Http
