import Webroot.Http.Failure
import Webroot.Http.Request
import Webroot.Text.Utf8

/-!
# Requests, read

Reads a request from the octets that a client sent: a request line of three words, header lines
of a name and a value, and an empty line. What follows the empty line is not looked at, except
that all octets together have to be a text.
-/

namespace Webroot.Http.Request

open Text

/-- The versions of the protocol that are spoken. -/
def versions : List Text := ["HTTP/1.1", "HTTP/1.0"]

/-- The request line, read: a method, a target and a version. -/
def readLine (line : Text) : Except Failure Request :=
  match words line with
  | [method, target, version] =>
    match Method.ofName? method with
    | none => .error (.unsupportedMethod method)
    | some m =>
      if versions.contains (upper version) then .ok (new m target)
      else .error (.unsupportedVersion (upper version))
  | _ => .error (.badRequestLine line)

/-- The request with the field of one header line. An empty line adds nothing. -/
def readField (r : Request) (line : Text) : Except Failure Request :=
  match cut ':' line with
  | some (name, value) => .ok (r.withField name value)
  | none => if line.isEmpty then .ok r else .error (.badHeader line)

/-- The part of a message before its first empty line. -/
def headOf (message : Text) : Text :=
  match cutAt "\r\n\r\n" message with
  | some (head, _) => head
  | none => message

/-- The request in the head of a message. -/
def readHead (head : Text) : Except Failure Request :=
  match lines head with
  | [] => .error (.badRequestLine [])
  | line :: fields => do
    let r ← readLine line
    fields.foldlM readField r

/-- The request that octets hold, with the number that the host gives it. -/
def read (octets : Octets) (id : Nat) : Except Failure Request :=
  match Utf8.decode? octets with
  | none => .error .notText
  | some t => do
    let r ← readHead (headOf (trimEnd (· == '\x00') t))
    .ok { r with id }

end Webroot.Http.Request
