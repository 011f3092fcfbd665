import Webroot.Text.Basic

/-!
# Status codes
-/

namespace Webroot.Http

/-- The phrases that belong to status codes. -/
def statusPhrases : List (Nat × Text) :=
  [(200, "OK"), (204, "No Content"), (206, "Partial Content"), (301, "Moved Permanently"),
   (302, "Found"), (304, "Not Modified"), (400, "Bad Request"), (403, "Forbidden"),
   (404, "Not Found"), (405, "Method Not Allowed"), (416, "Range Not Satisfiable"),
   (500, "Internal Server Error"), (501, "Not Implemented"), (505, "HTTP Version Not Supported")]

/-- The phrase after a status code in the status line. -/
def reasonPhrase (code : Nat) : Text :=
  (statusPhrases.lookup code).getD "Unknown Status"

/-- Whether answers with this status have no body, and so no length either. -/
def isBodiless (code : Nat) : Bool := code == 204 || code == 304

end Webroot.Http
