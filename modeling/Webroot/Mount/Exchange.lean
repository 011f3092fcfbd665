import Webroot.Http.Request
import Webroot.Http.Response
import Webroot.Mount.Setting

/-!
# Exchanges

An **exchange** is a request together with the response that is being built for it and a journal
of the calls made on the way. Callbacks see request and response and may change both as they
like; each call of one is written down with what it saw.
-/

namespace Webroot

open Http

/-- What the journal keeps of a request and response at a call. -/
structure View where
  scriptName : Text
  pathInfo : Text
  filename : Option Text
  deriving DecidableEq, Repr

/-- A call made while a request is served. -/
inductive Event where
  /-- A directory was walked into. -/
  | directory (seen : View)
  /-- The request was found to mean a file. -/
  | file (seen : View)
  /-- Resolution has succeeded, and the answer is about to be made. -/
  | resolved (seen : View)
  /-- A handler was asked for the answer. -/
  | handler (name : Text) (method : Method) (seen : View)
  /-- An installed lookup was asked for the home directory of a user. -/
  | homeLookup (user : Text)
  deriving DecidableEq, Repr

/-- A function that is called on the way and may change request and response. -/
abbrev Callback := Request → Response → Request × Response

/-- A request, the response to it and the calls made so far. -/
structure Exchange where
  request : Request
  response : Response := {}
  journal : List Event := []

namespace Exchange

/-- What a call sees. -/
def view (x : Exchange) : View :=
  ⟨x.request.scriptName, x.request.pathInfo, x.response.filename⟩

/-- The exchange with one more event in its journal. -/
def note (x : Exchange) (e : Event) : Exchange := { x with journal := x.journal ++ [e] }

/-- The exchange after a callback, if there is one. -/
def call (x : Exchange) (event : View → Event) (callback : Option Callback) : Exchange :=
  match callback with
  | none => x
  | some f =>
    let (request, response) := f x.request x.response
    { request, response, journal := x.journal ++ [event x.view] }

end Exchange

/-- The exchange after a part of the service, and what became of it. -/
structure Answer (α : Type) where
  result : Except Failure α
  exchange : Exchange

/-- The response after an attempt to answer, and what became of it. -/
structure Reply where
  result : Except Failure Outcome
  response : Response

end Webroot
