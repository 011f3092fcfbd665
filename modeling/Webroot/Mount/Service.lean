import Webroot.Mount.Listing
import Webroot.Mount.Resolve
import Webroot.Mount.StaticFile

/-!
# Mounts

A **mount** serves the files below a root directory. A request goes through these steps:

* **Home directories**: when the mount has a user directory and is itself mounted at the top, a
  path `/~user/…` is served from that directory in the user's home.
* **Resolution** finds the file or directory that is meant.
* **A file** is answered by the handler for its suffix, or as a plain file.
* **A directory** is redirected to when its path lacks the slash at the end, and listed otherwise.
-/

namespace Webroot

open Http

/-- A root directory with its options, the global handlers and the users' home directories. A
lookup of homes that is installed stands in place of the accounts of the machine. -/
structure Mount where
  root : Text
  options : MountOptions
  globalHandlers : HandlerTable := ∅
  accounts : Text → Option Text := fun _ => none
  homeLookup : Option (Text → Option Text) := none

namespace Mount

/-- The mount of a directory, given as seen from the working directory. -/
def new (workingDirectory root : Text) (options : MountOptions) : Mount :=
  { root := Path.absolute workingDirectory root, options }

/-! ### Home directories -/

/-- The user whose files a path info asks for, and the rest of the path info after the user's
name. -/
def userOf? (pathInfo : Text) : Option (Text × Text) :=
  match Text.after? "/~" pathInfo with
  | none => none
  | some rest =>
    let user := rest.takeWhile (· != '/')
    if user.isEmpty then none else some (user, rest.dropWhile (· != '/'))

/-- The home directory of a user, and the exchange after it was looked up. An installed lookup is a
call that the journal keeps. -/
def home? (m : Mount) (user : Text) (x : Exchange) : Option Text × Exchange :=
  match m.homeLookup with
  | some lookup => (lookup user, x.note (.homeLookup user))
  | none => (m.accounts user, x)

/-- The root directory for a request, and the exchange after a home directory was entered. -/
def enterHome (m : Mount) (x : Exchange) : Text × Exchange :=
  match m.options.userDir, userOf? x.request.pathInfo with
  | some dir, some (user, rest) =>
    if x.request.scriptName.isEmpty then
      let (home, x) := m.home? user x
      match home with
      | some home =>
        (Path.join home dir,
          { x with request := { x.request with scriptName := "/~" ++ user, pathInfo := rest } })
      | none => (m.root, x)
    else (m.root, x)
  | _, _ => (m.root, x)

/-! ### Files -/

/-- Answers a request for a file by a handler. -/
def handle (s : Setting) (h : Handler) (path : Text) (x : Exchange) : Answer Outcome :=
  let seen : View := ⟨x.request.scriptName, x.request.pathInfo, some path⟩
  let (result, request, response) := h.run s x.request x.response path
  ⟨result,
    { request, response, journal := x.journal ++ [.handler h.name x.request.method seen] }⟩

/-- Answers a request for a plain file. -/
def servePlain (s : Setting) (path : Text) (x : Exchange) : Answer Outcome :=
  let reply := StaticFile.serve s x.request x.response path
  ⟨reply.result, { x with response := reply.response }⟩

/-- Resolves a request and answers it if it means a file. -/
def execute (m : Mount) (s : Setting) (root : Text) (x : Exchange) : Answer (Option Outcome) :=
  let resolved := resolve s.tree m.options root x
  match resolved.result with
  | .error f => ⟨.error f, resolved.exchange⟩
  | .ok .directory =>
    ⟨.ok none, resolved.exchange.call .resolved m.options.handlerCallback⟩
  | .ok .file =>
    let handler := HandlerTable.choose m.options.handlers m.globalHandlers
      resolved.exchange.request.scriptName
    let x := resolved.exchange.call .resolved m.options.handlerCallback
    let path := x.response.filename.getD []
    let answer := match handler with
      | some h => handle s h path x
      | none => servePlain s path x
    ⟨answer.result.map some, answer.exchange⟩

/-! ### Directories -/

/-- The address of a directory with a slash at the end. The query string stays as it is. -/
def directoryLocation (r : Request) : Text :=
  Url.escapePath r.path ++ '/' ::
    match r.queryString with
    | some q => '?' :: q
    | none => []

/-- The response that sends the client to another address. -/
def setRedirect (r : Response) (location : Text) : Response :=
  ((r.setStatus 301).setField "Location" location).setPage (Page.status 301 (some location))

/-- Answers a request that means a directory. -/
def serveDirectory (m : Mount) (s : Setting) (x : Exchange) : Answer Outcome :=
  let path := x.request.path
  if !Path.endsInSlash path then
    let location := directoryLocation x.request
    ⟨.ok (.redirect location), { x with response := setRedirect x.response location }⟩
  else if !m.options.fancyIndexing then ⟨.error (.unlisted path), x⟩
  else
    let reply := serveListing s.tree m.options.hidden x.request x.response
      (x.response.filename.getD [])
    ⟨reply.result, { x with response := reply.response }⟩

/-! ### Service -/

/-- Answers a request. -/
def serve (m : Mount) (s : Setting) (x : Exchange) : Answer Outcome :=
  let method := x.request.method
  let (root, x) := m.enterHome x
  let executed := m.execute s root x
  match executed.result with
  | .error f => ⟨.error f, executed.exchange⟩
  | .ok (some outcome) => ⟨.ok outcome, executed.exchange⟩
  | .ok none =>
    match method with
    | .get | .head => m.serveDirectory s executed.exchange
    | .post => ⟨.error (.missing executed.exchange.request.path), executed.exchange⟩
    | .options => ⟨.ok .declined, executed.exchange⟩

end Mount

end Webroot
