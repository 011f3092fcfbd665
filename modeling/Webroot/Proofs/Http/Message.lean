import Webroot.Proofs.Http.Fields
import Webroot.Proofs.Http.Head

/-!
# Messages, read from their octets

A reader that knows nothing but the octets of a message: it reads a line with the status, the
fields up to an empty line, and takes what follows for the body. It can tell where the message ends
when the message is **delimited**: either its status is one without a body, and there is neither a
length nor a body, or exactly one field names the length of the body.

A response has three ways to become a delimited message: it has no body, or it stores the length of
its body, or the length is added when it is sent (`Response.Measured`). Main statement:
`Response.Measured.delimited`.
-/

namespace Webroot.Http

open Text

/-- A message as it is read. -/
structure Message where
  statusLine : Text
  fields : List (Text × Text)
  body : Octets
  deriving DecidableEq, Repr

namespace Message

/-- The message that octets hold: a line, the fields up to an empty line, and the rest. -/
def read? (o : Octets) : Option Message := do
  let (statusLine, rest) ← Multipart.line? o
  let (fields, body) ← Multipart.head? rest
  some ⟨statusLine, fields, body⟩

/-- The status code in the first line. -/
def status? (m : Message) : Option Nat := do
  let rest ← after? "HTTP/1.1 " m.statusLine
  let (code, _) ← cut ' ' rest
  readDecimal? code

/-- The lengths that the fields of a message name. -/
def lengths (m : Message) : List Text := fieldValues m.fields "Content-Length"

/-- A message is **delimited** when its end can be told from its head: with the status 204 or 304 it
names no length and has no body, and otherwise it names the length of its body once. -/
def Delimited (m : Message) : Prop :=
  ∃ status, m.status? = some status ∧
    ((status = 204 ∨ status = 304) → m.lengths = [] ∧ m.body = []) ∧
    (¬(status = 204 ∨ status = 304) → m.lengths = [decimal m.body.length])

end Message

namespace Response

/-! ### Reading what is sent -/

/-- The status is read from its line. -/
theorem status?_statusLine (r : Response) (fields : List (Text × Text)) (body : Octets) :
    Message.status? ⟨r.statusLine, fields, body⟩ = some r.status := by
  have hline : r.statusLine = "HTTP/1.1 " ++ (decimal r.status ++ ' ' :: r.reason) := by
    unfold statusLine
    rw [List.append_assoc, List.append_assoc]
    rfl
  have hcut := cut_append_cons (not_mem_decimal (c := ' ') rfl r.status) r.reason
  simp only [Message.status?, hline, after?_append, hcut, readDecimal?_decimal,
    Option.bind_eq_bind, Option.bind_some]

/-- What is sent is read as the status line, the fields with those that are added, and the body. -/
theorem read?_send {r : Response} (h : ∀ f ∈ r.fields, Multipart.PlainField f.1 f.2)
    (now : Instant) (headOnly : Bool) :
    Message.read? (r.send now headOnly).bytes =
      some ⟨r.statusLine, r.sentFields ++ closingFields now, (r.sendBody headOnly).bytes⟩ := by
  have hplain : ∀ f ∈ r.sentFields ++ closingFields now, Multipart.PlainField f.1 f.2 := by
    intro f hf
    rcases List.mem_append.mp hf with hf | hf
    · exact plain_sentFields h f hf
    · exact plain_closingFields now f hf
  have hreturn : ∀ t, Utf8.encode ('\r' :: '\n' :: t) = 13 :: 10 :: Utf8.encode t := fun _ => rfl
  have hbytes : (r.send now headOnly).bytes =
      Utf8.encode r.statusLine ++ 13 :: 10 ::
        (Utf8.encode (Multipart.fieldLines (r.sentFields ++ closingFields now)) ++
          13 :: 10 :: (r.sendBody headOnly).bytes) := by
    rw [send, head_eq, Utf8.encode_append, hreturn, Utf8.encode_append, hreturn]
    simp only [Utf8.encode_nil, List.append_assoc, List.cons_append, List.nil_append]
  simp only [Message.read?, hbytes, Multipart.line?_encode r.plain_statusLine.2,
    Multipart.head?_fieldLines hplain, Option.bind_eq_bind, Option.bind_some]

/-- The lengths in a head are the one that is stored, or the one that is added instead. -/
theorem Orderly.lengths {r : Response} (h : r.Orderly) (now : Instant) (body : Octets) :
    Message.lengths ⟨r.statusLine, r.sentFields ++ closingFields now, body⟩ =
      (r.field? "Content-Length").toList ++
        if (r.field? "Content-Length").isNone && !isBodiless r.status then
          [decimal r.body.length]
        else [] := by
  have hclosing : fieldValues (closingFields now) "Content-Length" = [] := rfl
  rw [Message.lengths, fieldValues_append, hclosing, List.append_nil, sentFields,
    fieldValues_append, h.fieldValues_eq]
  refine congrArg (_ ++ ·) ?_
  split
  · exact fieldValues_singleton _ _
  · rfl

/-! ### Responses that become delimited messages -/

/-- A response is **measured** when it has no body and its status allows none, or when the length
that it stores, or else the length that its body announces, is the number of bytes of the body. -/
inductive Measured (r : Response) : Prop
  | bodiless : r.Orderly → isBodiless r.status = true → r.field? "Content-Length" = none →
      r.body = .empty → Measured r
  | stored {bytes : Octets} : r.Orderly → isBodiless r.status = false →
      r.body.send = .ofBytes bytes → r.field? "Content-Length" = some (decimal bytes.length) →
      Measured r
  | added {bytes : Octets} : r.Orderly → isBodiless r.status = false →
      r.body.send = .ofBytes bytes → r.field? "Content-Length" = none →
      r.body.length = bytes.length → Measured r

/-- What is sent is delimited when the length that is stored or added is that of the body, or when
there is neither a length nor a body to a status that has none. -/
theorem Orderly.delimited {r : Response} (h : r.Orderly) {bytes : Octets}
    (hsend : r.body.send = .ofBytes bytes)
    (hbodiless : isBodiless r.status = true → r.field? "Content-Length" = none ∧ bytes = [])
    (hlength : isBodiless r.status = false →
      (r.field? "Content-Length").getD (decimal r.body.length) = decimal bytes.length)
    (now : Instant) :
    ∃ message, Message.read? (r.send now false).bytes = some message ∧
      (r.send now false).result = .ok message.body.length ∧ message.Delimited := by
  have hbody : r.sendBody false = .ofBytes bytes := hsend
  have hlengths := h.lengths now bytes
  refine ⟨_, read?_send h.plain now false, ?_, r.status, status?_statusLine _ _ _, ?_, ?_⟩
  · rw [send, hbody]
    rfl
  · intro hstatus
    have hnone : isBodiless r.status = true := by
      simpa [isBodiless] using hstatus
    obtain ⟨hfield, rfl⟩ := hbodiless hnone
    rw [hbody]
    refine ⟨?_, rfl⟩
    rw [Sent.ofBytes, hlengths, hfield, hnone]
    rfl
  · intro hstatus
    have hsome : isBodiless r.status = false := by
      simpa [isBodiless] using hstatus
    have hvalue := hlength hsome
    rw [hbody, Sent.ofBytes, hlengths, hsome]
    cases hfield : r.field? "Content-Length" with
    | none =>
      rw [hfield] at hvalue
      exact congrArg (fun t => [t]) hvalue
    | some value =>
      rw [hfield] at hvalue
      exact congrArg (fun t => [t]) hvalue

/-- A measured response is sent as a delimited message, and without an error. -/
theorem Measured.delimited {r : Response} (h : r.Measured) (now : Instant) :
    ∃ message, Message.read? (r.send now false).bytes = some message ∧
      (r.send now false).result = .ok message.body.length ∧ message.Delimited := by
  have hnot : ∀ {b : Bool}, b = true → b ≠ false := by
    rintro b rfl hfalse
    cases hfalse
  cases h with
  | bodiless horderly hstatus hfield hbody =>
    have hsend : r.body.send = .ofBytes [] := by rw [hbody]; rfl
    exact horderly.delimited hsend (fun _ => ⟨hfield, rfl⟩)
      (fun hsome => absurd hsome (hnot hstatus)) now
  | stored horderly hstatus hsend hfield =>
    exact horderly.delimited hsend (fun hnone => absurd hstatus (hnot hnone))
      (fun _ => by rw [hfield]; rfl) now
  | added horderly hstatus hsend hfield hlength =>
    exact horderly.delimited hsend (fun hnone => absurd hstatus (hnot hnone))
      (fun _ => by rw [hfield, ← hlength]; rfl) now

end Response

end Webroot.Http
