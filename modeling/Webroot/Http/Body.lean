import Webroot.Files.Source

/-!
# Message bodies

A body is empty, bytes, a piece of an open file, or several pieces of one file with a head before
each and a closing line after them. The file's bytes are read only when the body is sent.

`Body.length` is the length of a body. For several pieces it is a sum, and lengths are 64-bit
numbers: `Body.length?` is the length as it is added up, and what becomes of a sum that is too large
depends on how the server was built (`Overflow`). `Body.send` gives the bytes that are sent and how
sending ends.
-/

namespace Webroot.Http

/-- A line end in a message. -/
def lineEnd : Octets := [13, 10]

/-! ### Adding up -/

/-- What becomes of a sum of lengths that has more than 64 bits: adding up is broken off where sums
are checked, and the bits above the lowest 64 are lost where they are not. -/
inductive Overflow where
  | abort
  | wrap
  deriving DecidableEq, Repr

namespace Overflow

/-- What is kept of a sum, if adding up is not broken off. -/
def keep? (o : Overflow) (sum : Nat) : Option Nat :=
  if sum < 0x10000000000000000 then some sum
  else
    match o with
    | abort => none
    | wrap => some (sum % 0x10000000000000000)

/-- The sum of two lengths. -/
def add? (o : Overflow) (m n : Nat) : Option Nat := o.keep? (m + n)

end Overflow

/-! ### Bodies -/

/-- One piece of a body of several: `head` is sent, then `length` bytes of the file from `first`
on, then a line end. -/
structure BytePart where
  head : Octets
  first : Nat
  length : Nat
  deriving DecidableEq, Repr

/-- The number of bytes that a part takes up in the body. -/
def BytePart.size (p : BytePart) : Nat := p.head.length + p.length + lineEnd.length

/-- The size of a part as it is added up. -/
def BytePart.size? (o : Overflow) (p : BytePart) : Option Nat := do
  o.add? (← o.add? p.head.length p.length) lineEnd.length

/-- Adds the size of a part to a sum. -/
def BytePart.addTo? (o : Overflow) (sum : Nat) (p : BytePart) : Option Nat := do
  o.add? sum (← p.size? o)

/-- The body of a message. -/
inductive Body where
  | empty
  | bytes (content : Octets)
  /-- `length` bytes of an open file from a position on. -/
  | file (source : Source) (position length : Nat)
  | multipart (source : Source) (parts : List BytePart) (closing : Octets)
  deriving DecidableEq, Repr

/-- The bytes that were sent and how sending ended: the count of bytes, or an error. -/
structure Sent where
  bytes : Octets
  result : Except TransferError Nat

namespace Sent

/-- Sends more after what was sent without an error. -/
def andThen (s : Sent) (next : Sent) : Sent :=
  match s.result with
  | .error _ => s
  | .ok n =>
    { bytes := s.bytes ++ next.bytes, result := next.result.map (n + ·) }

/-- Sends bytes that are at hand. -/
def ofBytes (bytes : Octets) : Sent := ⟨bytes, .ok bytes.length⟩

/-- Sends nothing and fails. -/
def failed (e : TransferError) : Sent := ⟨[], .error e⟩

end Sent

namespace BytePart

/-- Sends the bytes of the file that belong to a part. All of them have to be there. -/
def sendContent (source : Source) (p : BytePart) : Sent :=
  match source.seekError? p.first with
  | some e => .failed e
  | none =>
    match source.read p.first p.length with
    | .error e => .failed e
    | .ok bytes =>
      if bytes.length < p.length then ⟨bytes, .error .truncated⟩ else .ofBytes bytes

/-- Sends one part. -/
def send (source : Source) (p : BytePart) : Sent :=
  ((Sent.ofBytes p.head).andThen (p.sendContent source)).andThen (.ofBytes lineEnd)

end BytePart

namespace Body

/-- The number of bytes of a body when its source holds all of them. -/
def length : Body → Nat
  | empty => 0
  | bytes content => content.length
  | file _ _ length => length
  | multipart _ parts closing => parts.foldr (fun p n => p.size + n) closing.length

/-- The length of a body as it is added up: part by part, the closing line at the end. -/
def length? (o : Overflow) : Body → Option Nat
  | multipart _ parts closing => do
    o.add? (← parts.foldlM (BytePart.addTo? o) 0) closing.length
  | b => some b.length

/-- Sends a body. A file that ends early just ends the body early; a part that ends early is an
error. -/
def send : Body → Sent
  | empty => .ofBytes []
  | bytes content => .ofBytes content
  | file source position length =>
    match source.read position length with
    | .error e => .failed e
    | .ok got => .ofBytes got
  | multipart source parts closing =>
    parts.foldr (fun p rest => (p.send source).andThen rest) (.ofBytes closing)

end Body

end Webroot.Http
