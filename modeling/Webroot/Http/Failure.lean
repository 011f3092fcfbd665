import Webroot.Text.Numeral

/-!
# Failures and outcomes

A **failure** says why a request is answered with an error, an **outcome** which way an answer was
made. Every failure has its status code, and so has every outcome but `declined`.
-/

namespace Webroot.Http

open Text

/-- Why a request is answered with an error, with a note for the client. -/
inductive Failure where
  | notFound (note : Text)
  | forbidden (note : Text)
  | badRequest (note : Text)
  | methodNotAllowed (note : Text)
  /-- No range of the request lies in the file, which has this size. -/
  | rangeNotSatisfiable (size : Nat)
  | internal (note : Text)
  /-- Lengths have a sum of more than 64 bits. Work on the request is broken off, and the response
  that was being built is lost. -/
  | overflow
  deriving DecidableEq, Repr

namespace Failure

/-- The status code of the answer. -/
def status : Failure → Nat
  | notFound _ => 404
  | forbidden _ => 403
  | badRequest _ => 400
  | methodNotAllowed _ => 405
  | rangeNotSatisfiable _ => 416
  | internal _ | overflow => 500

/-- The failure in words. -/
def message : Failure → Text
  | notFound note => "Not found: " ++ note
  | forbidden note => "Forbidden: " ++ note
  | badRequest note => "Bad request: " ++ note
  | methodNotAllowed note => "Method not allowed: " ++ note
  | rangeNotSatisfiable size =>
    "Requested range not satisfiable (file size " ++ decimal size ++ ")"
  | internal note => "Internal server error: " ++ note
  | overflow => "attempt to add with overflow"

/-- The note that the client may see: nothing about the inside of the server. -/
def publicNote? : Failure → Option Text
  | notFound note | forbidden note | badRequest note | methodNotAllowed note => some note
  | rangeNotSatisfiable _ | internal _ | overflow => none

/-! ### Causes -/

/-- A text between a grave accent and an apostrophe. -/
def cited (t : Text) : Text := "`" ++ t ++ "'"

/-- Nothing is served under this path. -/
def missing (path : Text) : Failure := notFound (cited path ++ " not found.")

/-- The path is a directory, and directories are not listed. -/
def unlisted (path : Text) : Failure := forbidden ("no access permission to " ++ cited path)

/-- The octets of the request are no text. -/
def notText : Failure := badRequest "request is not valid UTF-8"

/-- The first line of a request has not three words. -/
def badRequestLine (line : Text) : Failure := badRequest ("bad Request-Line " ++ cited line)

/-- The request has a version that is not spoken here. -/
def unsupportedVersion (version : Text) : Failure :=
  badRequest ("unsupported HTTP version " ++ cited version)

/-- A header line without a colon. -/
def badHeader (line : Text) : Failure := badRequest ("bad header " ++ cited line)

/-- A range field that names no ranges. -/
def badRange (value : Text) : Failure :=
  badRequest ("Unrecognized range-spec: \"" ++ value ++ "\"")

/-- The method is not known. -/
def unsupportedMethod (name : Text) : Failure :=
  methodNotAllowed ("unsupported method " ++ cited name)

/-- The method is not for plain files. -/
def notForFiles (method path : Text) : Failure :=
  methodNotAllowed ("unsupported method " ++ cited method ++ " for " ++ cited path ++ ".")

/-- What is served under this path exists but cannot be reached. -/
def inaccessible (path : Text) : Failure := internal ("cannot access " ++ cited path)

/-- A file cannot be opened. -/
def cannotOpen (file : Text) : Failure := internal ("cannot open " ++ cited file)

/-- A file has no positions to go to. -/
def cannotSeek (file : Text) : Failure := internal ("cannot seek " ++ cited file)

/-- A file cannot be read. -/
def cannotRead (file : Text) : Failure := internal ("cannot read " ++ cited file)

/-- A file holds less than it was said to. -/
def changed (file : Text) : Failure := internal (cited file ++ " changed while reading")

/-- A directory cannot be read. -/
def cannotList (dir : Text) : Failure := internal ("cannot read directory " ++ cited dir)

end Failure

/-- Which way an answer was made. -/
inductive Outcome where
  | ok
  | partialContent
  | notModified
  | redirect (location : Text)
  /-- Nobody took the request; the host answers as it likes. -/
  | declined
  deriving DecidableEq, Repr

namespace Outcome

/-- The status code that belongs to an outcome. -/
def status? : Outcome → Option Nat
  | ok => some 200
  | partialContent => some 206
  | notModified => some 304
  | redirect _ => some 301
  | declined => none

end Outcome

end Webroot.Http
