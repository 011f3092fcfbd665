import Webroot.Config
import Webroot.Http.RequestReader
import Webroot.Mount.Service

/-!
# The host

The host reads one request from each connection, has the mount answer it, and sends the answer. A
file is sent in pieces of bounded size, and the way in which reading cuts a file into pieces is
left open: a `Cuts` says for each step how much is read at most. The steps are numbered through the
whole body, so that no two parts of it share one.
-/

namespace Webroot

open Http

namespace Host

/-! ### Reading and answering -/

/-- The most octets of a request that are read. -/
def maxRequest : Nat := 8192

/-- The methods that the host names when the mount declines. -/
def hostMethods : Text := "GET, HEAD, POST, OPTIONS"

/-- The response to a request. When work on the request was broken off the report is made anew. -/
def respond (m : Mount) (s : Setting) (request : Request) : Response :=
  let answer := m.serve s { request }
  let response := answer.exchange.response
  match answer.result with
  | .ok .declined => (response.setStatus 204).setField "Allow" hostMethods
  | .ok _ => response
  | .error .overflow => .ofFailure .overflow
  | .error f => response.setFailure f

/-- The response to the octets of a request with its number, and whether only its head is sent. -/
def respondTo (m : Mount) (s : Setting) (id : Nat) (octets : Octets) : Response × Bool :=
  match Request.read octets id with
  | .error f => (Response.ofFailure f, false)
  | .ok request => (respond m s request, request.method == .head)

/-! ### Sending in pieces -/

/-- For each step of reading, how many bytes are read at most. -/
abbrev Cuts := Nat → Nat

/-- The number of bytes that a step reads of `left`: at least one, and at most a chunk. -/
def pieceSize (chunk : Nat) (cuts : Cuts) (step left : Nat) : Nat :=
  min (min chunk (max 1 (cuts step))) left

/-- The pieces of `left` bytes of a source from a position on, until the file ends. Every step
reads a byte at least, so `fuel` need not be above `left`. -/
def pieces (source : Source) (chunk : Nat) (cuts : Cuts) :
    (fuel step position left : Nat) → Sent
  | 0, _, _, _ => .ofBytes []
  | fuel + 1, step, position, left =>
    let size := pieceSize chunk cuts step left
    match source.read position size with
    | .error e => .failed e
    | .ok [] => .ofBytes []
    | .ok (b :: bytes) =>
      let got := b :: bytes
      (Sent.ofBytes got).andThen
        (pieces source chunk cuts fuel (step + 1) (position + got.length) (left - got.length))

/-- Sends bytes of a file in pieces, from a step on. -/
def sendFile (source : Source) (chunk : Nat) (cuts : Cuts) (step position length : Nat) : Sent :=
  pieces source chunk cuts length step position length

/-- Sends one part of a body in pieces, from a step on. All of its bytes have to be there. -/
def sendPart (source : Source) (chunk : Nat) (cuts : Cuts) (step : Nat) (p : BytePart) : Sent :=
  let content :=
    match source.seekError? p.first with
    | some e => Sent.failed e
    | none =>
      let sent := sendFile source chunk cuts step p.first p.length
      match sent.result with
      | .error _ => sent
      | .ok n => if n = p.length then sent else { sent with result := .error .truncated }
  ((Sent.ofBytes p.head).andThen content).andThen (.ofBytes lineEnd)

/-- Sends parts of a body in pieces, from a step on, and the line after them. A part of `n` bytes
takes `n` steps at most, and the next part begins with the step after these. -/
def sendParts (source : Source) (chunk : Nat) (cuts : Cuts) (closing : Octets) :
    (step : Nat) → List BytePart → Sent
  | _, [] => .ofBytes closing
  | step, p :: parts =>
    (sendPart source chunk cuts step p).andThen
      (sendParts source chunk cuts closing (step + p.length) parts)

/-- Sends a body in pieces. -/
def sendBody (chunk : Nat) (cuts : Cuts) : Body → Sent
  | .empty => .ofBytes []
  | .bytes content => .ofBytes content
  | .file source position length => sendFile source chunk cuts 0 position length
  | .multipart source parts closing => sendParts source chunk cuts closing 0 parts

/-- Sends a response in pieces. -/
def send (response : Response) (now : Instant) (headOnly : Bool) (chunk : Nat) (cuts : Cuts) :
    Sent :=
  let body := if headOnly then Sent.ofBytes [] else sendBody chunk cuts response.body
  { bytes := Utf8.encode (response.head now) ++ body.bytes, result := body.result }

/-! ### A connection -/

/-- The mount that a configuration asks for. -/
def mountOf (workingDirectory : Text) (c : Config) : Mount :=
  Mount.new workingDirectory c.root c.mount

/-- The octets that the host sends for the octets that a client sent. A client that sends nothing
gets nothing. -/
def connection (m : Mount) (s : Setting) (chunk : Nat) (cuts : Cuts) (id : Nat) (input : Octets) :
    Octets :=
  match input.take maxRequest with
  | [] => []
  | octets =>
    let (response, headOnly) := respondTo m s id octets
    (send response s.now headOnly chunk cuts).bytes

end Host

end Webroot
