import Webroot.Http.ByteRange
import Webroot.Mount.Exchange

/-!
# Answers with parts of a file

One range that lies in the file is answered with that part of it; a part that ends the file is
sent from the open file, any other is read at once. Of several ranges those that lie in the file
are sent as the parts of one body. When no range lies in the file the answer is a failure, and
then the response stays as it was. It does so too when adding up the lengths of the parts is broken
off, since a response that is lost is none to go on with.
-/

namespace Webroot

open Http Text

namespace Ranges

/-- The reply that leaves the response as it was. -/
def failed (f : Failure) (response : Response) : Reply := ⟨.error f, response⟩

/-- The bytes of a span, all of them. -/
def readSpan (source : Source) (path : Text) (span : Span) : Except Failure Octets :=
  match source.seekError? span.first with
  | some _ => .error (.cannotSeek path)
  | none =>
    match source.read span.first span.length with
    | .error _ => .error (.cannotRead path)
    | .ok bytes => if bytes.length < span.length then .error (.changed path) else .ok bytes

/-- The body for one span of a file of `size` bytes. -/
def spanBody (source : Source) (path : Text) (span : Span) (size : Nat) : Except Failure Body :=
  if span.last = size - 1 then
    match source.seekError? span.first with
    | some _ => .error (.cannotSeek path)
    | none => .ok (.file source span.first span.length)
  else (readSpan source path span).map .bytes

/-- The response with one span of a file as its body. -/
def setSpan (response : Response) (mime : Text) (span : Span) (size : Nat) (body : Body) :
    Response :=
  ((((response.setStatus 206).setField "Content-Type" mime).setField "Content-Range"
    (span.contentRange size)).setField "Content-Length" (decimal span.length)).setBody body

/-- The answer to one range. -/
def single (source : Source) (path mime : Text) (size : Nat) (spec : RangeSpec)
    (response : Response) : Reply :=
  match spec.span? size with
  | none => failed (.rangeNotSatisfiable size) response
  | some span =>
    match spanBody source path span size with
    | .error f => failed f response
    | .ok body => ⟨.ok .partialContent, setSpan response mime span size body⟩

/-! ### Several ranges -/

/-- The head of a part. -/
def partHead (boundary mime : Text) (span : Span) (size : Nat) : Text :=
  "--" ++ boundary ++ "\r\n" ++ "Content-Type: " ++ mime ++ "\r\n" ++ "Content-Range: "
    ++ span.contentRange size ++ "\r\n\r\n"

/-- The part for a span. -/
def part (boundary mime : Text) (size : Nat) (span : Span) : BytePart :=
  ⟨Utf8.encode (partHead boundary mime span size), span.first, span.length⟩

/-- The line after the last part. -/
def closing (boundary : Text) : Text := "--" ++ boundary ++ "--\r\n"

/-- The type of a body of several parts. -/
def multipartType (boundary : Text) : Text := "multipart/byteranges; boundary=" ++ boundary

/-- The body for several spans. -/
def spansBody (source : Source) (boundary mime : Text) (size : Nat) (spans : List Span) : Body :=
  .multipart source (spans.map (part boundary mime size)) (Utf8.encode (closing boundary))

/-- The response with several spans of a file as its body, of the length that was added up. -/
def setSpans (response : Response) (boundary : Text) (length : Nat) (body : Body) : Response :=
  ((((response.setStatus 206).setField "Content-Type" (multipartType boundary)).setField
    "Content-Length" (decimal length)).removeField "Content-Range").setBody body

/-- The answer to several ranges. The length of its body is added up before the body is stored. -/
def several (s : Setting) (source : Source) (mime : Text) (size : Nat) (specs : List RangeSpec)
    (response : Response) : Reply :=
  match specs.filterMap fun spec => spec.span? size with
  | [] => failed (.rangeNotSatisfiable size) response
  | spans =>
    let body := spansBody source s.boundary mime size spans
    match body.length? s.overflow with
    | none => failed .overflow response
    | some length => ⟨.ok .partialContent, setSpans response s.boundary length body⟩

end Ranges

/-- Answers the range field of a request for a file of which `size` bytes of type `mime` are
known. -/
def serveRanges (s : Setting) (request : Request) (response : Response) (path : Text) (size : Nat)
    (mime : Text) : Reply :=
  let value := (request.field? "range").getD []
  match RangeSpec.parse? value with
  | none => Ranges.failed (.badRange value) response
  | some specs =>
    match s.tree.source path with
    | .error _ => Ranges.failed (.cannotOpen path) response
    | .ok source =>
      match specs with
      | [] => Ranges.failed (.badRange value) response
      | [spec] => Ranges.single source path mime size spec response
      | specs => Ranges.several s source mime size specs response

end Webroot
