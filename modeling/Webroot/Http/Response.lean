import Webroot.Http.Body
import Webroot.Http.Failure
import Webroot.Page.Status
import Webroot.Time.HttpDate

/-!
# Responses

A response is built up step by step: a status, header fields, a body, and the local file that the
request was found to mean. A field is set under one name whatever the case of its letters, and a
later value takes the place of an earlier one.
-/

namespace Webroot.Http

open Text

/-- A response under construction. -/
structure Response where
  status : Nat := 200
  /-- The header fields in the order in which they were first set. -/
  fields : List (Text × Text) := []
  body : Body := .empty
  /-- The local path that the request was resolved to. -/
  filename : Option Text := none
  deriving DecidableEq, Repr

namespace Response

/-- The phrase after the status code. -/
def reason (r : Response) : Text := reasonPhrase r.status

/-! ### Header fields -/

/-- The value of a header field. -/
def field? (r : Response) (name : Text) : Option Text :=
  (r.fields.find? fun (k, _) => SameLetters k name).map (·.2)

/-- Puts a value in the place of the first field with that name, or behind all fields. -/
def putField (name value : Text) : List (Text × Text) → List (Text × Text)
  | [] => [(name, value)]
  | (k, v) :: fs =>
    if SameLetters k name then (k, value) :: fs else (k, v) :: putField name value fs

/-- The response with a header field set. -/
def setField (r : Response) (name value : Text) : Response :=
  { r with fields := putField name value r.fields }

/-- The response without a header field. -/
def removeField (r : Response) (name : Text) : Response :=
  { r with fields := r.fields.filter fun (k, _) => ¬SameLetters k name }

/-- The response with another status. -/
def setStatus (r : Response) (code : Nat) : Response := { r with status := code }

/-- The response with another body. -/
def setBody (r : Response) (body : Body) : Response := { r with body }

/-- The response with another local path. -/
def setFilename (r : Response) (path : Text) : Response := { r with filename := some path }

theorem find?_putField (name value : Text) (fs : List (Text × Text)) :
    ((putField name value fs).find? fun (k, _) => SameLetters k name).map (·.2) = some value := by
  induction fs with
  | nil => simp [putField, SameLetters]
  | cons f fs ih =>
    obtain ⟨k, v⟩ := f
    by_cases h : SameLetters k name
    · simp [putField, h]
    · simpa [putField, h] using ih

theorem find?_putField_of_ne {name other : Text} (h : ¬SameLetters name other) (value : Text)
    (fs : List (Text × Text)) :
    ((putField name value fs).find? fun (k, _) => SameLetters k other).map (·.2) =
      (fs.find? fun (k, _) => SameLetters k other).map (·.2) := by
  induction fs with
  | nil => simp [putField, h]
  | cons f fs ih =>
    obtain ⟨k, v⟩ := f
    by_cases hk : SameLetters k name
    · have hother : ¬SameLetters k other := fun ho => h (hk.symm.trans ho)
      simp [putField, hk, hother]
    · by_cases ho : SameLetters k other
      · simp [putField, hk, ho]
      · simpa [putField, hk, ho] using ih

/-- A field that was set has the value it was set to. -/
@[simp]
theorem field?_setField (r : Response) (name value : Text) :
    (r.setField name value).field? name = some value :=
  find?_putField name value r.fields

/-- Setting a field leaves the others as they are. -/
theorem field?_setField_of_ne {name other : Text} (h : ¬SameLetters name other) (r : Response)
    (value : Text) : (r.setField name value).field? other = r.field? other :=
  find?_putField_of_ne h value r.fields

/-- A field that was removed is not there. -/
@[simp]
theorem field?_removeField (r : Response) (name : Text) :
    (r.removeField name).field? name = none := by
  simp [field?, removeField, List.find?_filter]

/-- Removing a field leaves the others as they are. -/
theorem field?_removeField_of_ne {name other : Text} (h : ¬SameLetters name other)
    (r : Response) : (r.removeField name).field? other = r.field? other := by
  have hkeep : ∀ f : Text × Text, SameLetters f.1 other → ¬SameLetters f.1 name :=
    fun f ho hn => h (hn.symm.trans ho)
  rw [field?, removeField, List.find?_filter, field?]
  congr 2
  funext f
  by_cases ho : SameLetters f.1 other
  · simp [ho, hkeep f ho]
  · simp [ho]

@[simp]
theorem field?_setBody (r : Response) (body : Body) (name : Text) :
    (r.setBody body).field? name = r.field? name := rfl

/-- The type of the pages that are made here. -/
def pageType : Text := "text/html; charset=utf-8"

/-- The methods that plain files can be asked for with. -/
def fileMethods : Text := "GET, HEAD, OPTIONS"

/-- The response with a page of this status. -/
def setPage (r : Response) (page : Text) : Response :=
  (r.setField "Content-Type" pageType).setBody (.bytes (Utf8.encode page))

/-! ### Failures -/

/-- The response without the fields that describe content. -/
def removeContentFields (r : Response) : Response :=
  (((r.removeField "ETag").removeField "Last-Modified").removeField
    "Content-Length").removeField "Content-Range"

/-- The response with the field that a kind of failure calls for. -/
def setFailureField (r : Response) : Failure → Response
  | .rangeNotSatisfiable size => r.setField "Content-Range" ("bytes */" ++ decimal size)
  | .methodNotAllowed _ => r.setField "Allow" fileMethods
  | _ => r

/-- The response turned into the report of a failure. -/
def setFailure (r : Response) (f : Failure) : Response :=
  (((r.setStatus f.status).removeContentFields).setFailureField f).setPage
    (Page.status f.status f.publicNote?)

/-- The report of a failure. -/
def ofFailure (f : Failure) : Response := setFailure {} f

/-! ### On the wire -/

/-- The name of this server. -/
def serverName : Text := "shaneyale-filehandler"

/-- One line of a head. -/
def fieldLine (name value : Text) : Text := name ++ ": " ++ value ++ "\r\n"

/-- The lines of the stored fields. A length is added from the body unless there is one or the
status forbids it. It is the length of a body that fits: no response made here has another. -/
def fieldLines (r : Response) : Text :=
  r.fields.flatMap (fun (k, v) => fieldLine k v) ++
    if (r.field? "Content-Length").isNone && !isBodiless r.status then
      fieldLine "Content-Length" (decimal r.body.length)
    else []

/-- The head of the message: status line, fields, date, server and an empty line. -/
def head (r : Response) (now : Instant) : Text :=
  "HTTP/1.1 " ++ decimal r.status ++ " " ++ r.reason ++ "\r\n" ++ r.fieldLines
    ++ fieldLine "Date" (HttpDate.format now.seconds) ++ fieldLine "Server" serverName ++ "\r\n"

/-- The body as it is sent: without one, no byte. -/
def sendBody (r : Response) (headOnly : Bool) : Sent :=
  if headOnly then .ofBytes [] else r.body.send

/-- The whole message. The count is that of the bytes of the body. -/
def send (r : Response) (now : Instant) (headOnly : Bool) : Sent :=
  let body := r.sendBody headOnly
  { bytes := Utf8.encode (r.head now) ++ body.bytes, result := body.result }

end Response

end Webroot.Http
