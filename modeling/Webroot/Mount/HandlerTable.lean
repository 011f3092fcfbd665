import Webroot.Http.MediaType
import Webroot.Mount.Exchange
import Webroot.Text.Quoted

/-!
# Handlers

A **handler** answers requests for files with a certain suffix. A handler table maps suffixes to
handlers; a suffix counts without the dots in front of it and in lower case. A file is handled by
the first handler found for its suffixes in the mount's own table and then in the global one.
-/

namespace Webroot

open Http Text

/-- A handler: its name, and how it answers a request for a local file. -/
structure Handler where
  name : Text
  run : Setting → Request → Response → (path : Text) → Except Failure Outcome × Request × Response

/-- Handlers by suffix. -/
abbrev HandlerTable := Table Handler

namespace HandlerTable

/-- The form in which a suffix is kept. -/
def key (suffix : Text) : Text := lower (suffix.dropWhile (· == '.'))

/-- The handler for a suffix. -/
def find? (t : HandlerTable) (suffix : Text) : Option Handler := t[key suffix]?

/-- The table with a handler for a suffix; it takes the place of the one before. -/
def add (t : HandlerTable) (suffix : Text) (h : Handler) : HandlerTable := t.insert (key suffix) h

/-- The table without the handler for a suffix. -/
def remove (t : HandlerTable) (suffix : Text) : HandlerTable := t.erase (key suffix)

/-- Takes the handler for a suffix out of the table: the handler, if there was one, and the table
without it. -/
def takeOut (t : HandlerTable) (suffix : Text) : Option Handler × HandlerTable :=
  (t.find? suffix, t.remove suffix)

/-- The number of suffixes that have a handler. -/
def count (t : HandlerTable) : Nat := t.size

/-- The handler for a file name: the mount's before the global one, and in each table the one for
the primary suffix before the one for the secondary suffix. -/
def choose (mount global : HandlerTable) (name : Text) : Option Handler :=
  [mount, global].findSome? fun t => (suffixes name).findSome? fun s => find? t s

/-- The suffixes of a table in order, as a text. -/
def describe (t : HandlerTable) : Text :=
  "HandlerTable \x7b suffixes: " ++ quotedList t.keys ++ " \x7d"

end HandlerTable

end Webroot
