import Webroot.Http.Request
import Webroot.Time.HttpDateReader

/-!
# Revalidation

A client that has a copy of a file may send what it knows of it. The copy is still good when one
of these says so, in this order:

* **If-Range**: a date not before the last change, or a list that holds the file's tag;
* **If-Modified-Since**: a date not before the last change;
* **If-None-Match**: a list that holds the file's tag or `*`.

Dates count in whole seconds.
-/

namespace Webroot.Http

/-- Whether a date is not before the second of the last change. -/
def notBefore (date : Instant) (changed : Int) : Bool := changed ≤ date.seconds

/-- What If-Range says. -/
def ifRangeHolds (value : Text) (changed : Int) (tag : Text) : Bool :=
  match HttpDate.read? value with
  | some date => notBefore date changed
  | none => (listElements value).contains tag

/-- What If-Modified-Since says. -/
def ifModifiedSinceHolds (value : Text) (changed : Int) : Bool :=
  match HttpDate.read? value with
  | some date => notBefore date changed
  | none => false

/-- What If-None-Match says. -/
def ifNoneMatchHolds (value : Text) (tag : Text) : Bool :=
  (listElements value).any fun t => t = tag ∨ t = ['*']

/-- Whether the client's copy of a file is still good. -/
def Request.notModified (r : Request) (changed : Int) (tag : Text) : Bool :=
  (r.field? "if-range").any (ifRangeHolds · changed tag)
    || (r.field? "if-modified-since").any (ifModifiedSinceHolds · changed)
    || (r.field? "if-none-match").any (ifNoneMatchHolds · tag)

end Webroot.Http
