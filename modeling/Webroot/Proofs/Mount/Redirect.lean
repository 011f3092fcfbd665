import Webroot.Proofs.Http.RequestLine
import Webroot.Proofs.Mount.Outcome
import Webroot.Proofs.Mount.Refusal

/-!
# Where redirects lead

A mount without callbacks redirects for one reason only: a request ends in a directory and its path
lacks the slash at the end. The client is then sent to the written form of the path with a slash
added. The walk ends at an empty segment in any directory that has no index file, so a path need
not name a directory for this: `//host` is redirected to `//host/`, and such an address begins with
a **host** where the others begin with a path.

Main statements: `staysOnHost_iff_of_redirect`, the paths for which the client stays on the host,
and `not_forall_staysOnHost`.
-/

namespace Webroot

open Http Text

/-- An address **stays on the host** when it starts with one slash that no other follows. -/
def StaysOnHost (location : Text) : Prop :=
  ∃ rest, location = '/' :: rest ∧ rest.head? ≠ some '/'

namespace Mount

variable {m : Mount} {s : Setting} {x : Exchange} {location : Text}

/-! ### The address of a directory -/

/-- The address that a directory is redirected to stays on the host unless the path starts with two
slashes. -/
theorem staysOnHost_directoryLocation {r : Request} {p : Text} (hpath : r.path = '/' :: p)
    (hend : Path.endsInSlash r.path = false) :
    StaysOnHost (directoryLocation r) ↔ p.head? ≠ some '/' := by
  have hne : p ≠ [] := by
    rintro rfl
    rw [hpath] at hend
    cases hend
  -- something is written for the rest of the path, so its first character decides
  obtain ⟨c, t, hwritten⟩ := List.exists_cons_of_ne_nil (Url.escapePath_ne_nil hne)
  obtain ⟨q, hlocation⟩ : ∃ q, directoryLocation r = '/' :: (Url.escapePath p ++ '/' :: q) := by
    rw [directoryLocation, hpath, Url.escapePath_slash]
    exact ⟨_, rfl⟩
  have hhead : (Url.escapePath p ++ '/' :: q).head? = (Url.escapePath p).head? := by
    rw [hwritten]
    rfl
  rw [hlocation, ne_eq, ← Url.head?_escapePath_eq_slash, ← hhead]
  constructor
  · rintro ⟨rest, hrest, hslash⟩
    obtain rfl := (List.cons.inj hrest).2
    exact hslash
  · intro hslash
    exact ⟨_, rfl, hslash⟩

/-! ### Why a mount redirects -/

/-- A handler is asked for the answer to a request: the request finds a file, and there is a handler
for the suffixes of its name. -/
def Dispatches (m : Mount) (s : Setting) (x : Exchange) : Prop :=
  let resolved := resolve s.tree m.options (m.enterHome x).1 (m.enterHome x).2
  resolved.result = .ok .file ∧
    (HandlerTable.choose m.options.handlers m.globalHandlers
      resolved.exchange.request.scriptName).isSome = true

/-- A mount without handlers asks none. -/
theorem Bare.not_dispatches (hm : m.Bare) : ¬m.Dispatches s x := by
  rintro ⟨-, hhandler⟩
  rw [hm.handlers, hm.globalHandlers, choose_empty] at hhandler
  cases hhandler

theorem exists_of_map_eq_ok {α β : Type} {f : α → β} {e : Except Failure α} {b : β}
    (h : e.map f = .ok b) : ∃ a, e = .ok a ∧ f a = b := by
  cases e with
  | error => cases h
  | ok a => exact ⟨a, rfl, Except.ok.inj h⟩

/-- A request that finds a file is answered by a handler or by that file. -/
theorem exists_outcome_of_execute {root : Text} {o : Option Outcome} (ho : m.options.Silent)
    (hfile : (resolve s.tree m.options root x).result = .ok .file)
    (h : (m.execute s root x).result = .ok o) :
    ∃ outcome, o = some outcome ∧
      ((HandlerTable.choose m.options.handlers m.globalHandlers
          (resolve s.tree m.options root x).exchange.request.scriptName).isSome = true ∨
        ∃ response, PlainOutcome outcome response) := by
  simp only [execute, hfile, ho.handler, Exchange.call] at h
  obtain ⟨outcome, hanswer, hsome⟩ := exists_of_map_eq_ok h
  refine ⟨outcome, hsome.symm, ?_⟩
  cases hchoose : HandlerTable.choose m.options.handlers m.globalHandlers
      (resolve s.tree m.options root x).exchange.request.scriptName with
  | some handler => exact .inl rfl
  | none =>
    rw [hchoose] at hanswer
    exact .inr ⟨_, StaticFile.serve_outcome hanswer⟩

/-- A request that ends in a directory is not answered yet. -/
theorem execute_eq_of_endsInDirectory {root : Text} {pre left : List Text}
    (ho : m.options.Silent)
    (h : Resolve.EndsInDirectory s.tree m.options root x.request pre left) :
    m.execute s root x = ⟨.ok none,
      Resolve.moved root x (pre.flatten ++ (left.take 1).flatten) (left.drop 1)⟩ := by
  rw [execute, h.resolve_eq ho]
  simp only [ho.handler, Exchange.call]

/-- Entering a home directory changes neither the path nor the query string. -/
theorem directoryLocation_enterHome (m : Mount) (x : Exchange) :
    (m.enterHome x).2.request.path = x.request.path ∧
      directoryLocation (m.enterHome x).2.request = directoryLocation x.request := by
  have hhome : ∀ user, (m.home? user x).2.request = x.request := by
    intro user
    rw [home?.eq_def]
    split <;> rfl
  rw [enterHome]
  split
  · split_ifs
    · dsimp only
      split
      · simp only [directoryLocation, hhome, and_self]
      · rw [hhome]
        exact ⟨rfl, rfl⟩
    · exact ⟨rfl, rfl⟩
  · exact ⟨rfl, rfl⟩

/-- A directory is redirected to when its path has no slash at the end. -/
theorem eq_of_redirect_serveDirectory
    (h : (m.serveDirectory s x).result = .ok (.redirect location)) :
    location = directoryLocation x.request ∧ Path.endsInSlash x.request.path = false := by
  simp only [serveDirectory] at h
  split_ifs at h with hend hindex
  · exact ⟨(Outcome.redirect.inj (Except.ok.inj h)).symm, by simpa using hend⟩
  · rw [serveListing] at h
    split at h <;> cases h

section Redirected

variable {pre left rest : List Text} {base name : Text} (ho : m.options.Silent)
  (h : (m.serve s x).result = .ok (.redirect location))

include ho h

/-- Of the files that a request finds none redirects: a handler does. -/
theorem dispatches_of_finds
    (hfinds : Resolve.Finds s.tree m.options (m.enterHome x).1 (m.enterHome x).2.request
      pre base rest name) : m.Dispatches s x := by
  have hfile : (resolve s.tree m.options (m.enterHome x).1 (m.enterHome x).2).result =
      .ok .file := by
    rw [hfinds.resolve_eq ho]
  simp only [serve_eq] at h
  split at h
  · cases h
  · rename_i outcome hexecute
    obtain rfl := Except.ok.inj h
    obtain ⟨outcome, houtcome, hhandler | ⟨response, hplain⟩⟩ :=
      exists_outcome_of_execute ho hfile hexecute
    · exact ⟨hfile, hhandler⟩
    · obtain rfl := Option.some.inj houtcome
      cases hplain
  · rename_i hexecute
    obtain ⟨outcome, houtcome, -⟩ := exists_outcome_of_execute ho hfile hexecute
    cases houtcome

/-- A request that ends in a directory is redirected by that directory. -/
theorem eq_of_endsInDirectory
    (hdir : Resolve.EndsInDirectory s.tree m.options (m.enterHome x).1 (m.enterHome x).2.request
      pre left) :
    location = directoryLocation x.request ∧ Path.endsInSlash x.request.path = false := by
  obtain ⟨hpath, haddress⟩ := directoryLocation_enterHome m x
  simp only [serve_eq, execute_eq_of_endsInDirectory ho hdir] at h
  have hdirectory : (m.serveDirectory s (Resolve.moved (m.enterHome x).1 (m.enterHome x).2
      (pre.flatten ++ (left.take 1).flatten) (left.drop 1))).result = .ok (.redirect location) := by
    cases hmethod : x.request.method with
    | get | head => simpa only [hmethod] using h
    | post | options =>
      rw [hmethod] at h
      cases h
  -- the walk moves names from one field to another and leaves the path alone
  obtain ⟨hlocation, hend⟩ := eq_of_redirect_serveDirectory hdirectory
  exact ⟨hlocation.trans haddress, by rw [← hpath]; exact hend⟩

/-- A mount without callbacks redirects requests that end in a directory and whose path has no slash
at the end, unless a handler redirects. -/
theorem dispatches_or_eq_of_redirect :
    m.Dispatches s x ∨
      location = directoryLocation x.request ∧ Path.endsInSlash x.request.path = false := by
  rcases Resolve.finds_or_endsInDirectory_or_misses s.tree m.options (m.enterHome x).1
    (m.enterHome x).2.request with
    ⟨pre, base, rest, name, hfinds⟩ | ⟨pre, left, hdir⟩ | ⟨pre, base, rest, hmiss⟩
  · exact .inl (dispatches_of_finds ho h hfinds)
  · exact .inr (eq_of_endsInDirectory ho h hdir)
  · have hresolve := hmiss.resolve_result ho
    simp only [serve_eq, execute, hresolve] at h
    cases h

end Redirected

/-- **Redirects.** A mount without callbacks redirects a request because a handler is asked for the
answer, or to a directory. Of the clients that are sent to a directory those stay on the host that
asked for a path with one slash in front. Where the path that was asked for starts
with two slashes, the address that the client is sent to begins with a host. -/
theorem staysOnHost_iff_of_redirect (ho : m.options.Silent) {octets : Octets} {id : Nat}
    {r : Request} (hread : Request.read octets id = .ok r) {t : Text}
    (htarget : Request.target? octets = some ('/' :: t)) {response : Response}
    (h : (m.serve s { request := r, response }).result = .ok (.redirect location)) :
    m.Dispatches s { request := r, response } ∨
      (StaysOnHost location ↔ ¬ ∃ p, r.path = '/' :: '/' :: p) := by
  obtain ⟨p, hpath⟩ := Request.exists_path_of_read hread htarget
  rcases dispatches_or_eq_of_redirect ho h with hdispatches | ⟨rfl, hend⟩
  · exact .inl hdispatches
  · refine .inr ?_
    rw [staysOnHost_directoryLocation hpath hend, hpath]
    constructor
    · rintro hslash ⟨p', hp'⟩
      obtain rfl := (List.cons.inj hp').2
      exact hslash rfl
    · intro hnone hslash
      obtain ⟨p', rfl⟩ := List.head?_eq_some_iff.mp hslash
      exact hnone ⟨p', rfl⟩

/-- A mount without an index file at its root. -/
def bareMount : Mount := { root := "/www", options := {} }

/-- The octets of a request for the name of a host in place of a path. -/
def hostOctets : Octets := Utf8.encode "GET //host HTTP/1.1\r\n\r\n"

/-- The request that they hold. -/
def hostRequest : Request := Request.new .get "//host"

theorem read_hostOctets : Request.read hostOctets 0 = .ok hostRequest := by
  rfl

theorem serve_hostRequest :
    (bareMount.serve frenchSetting { request := hostRequest }).result =
      .ok (.redirect "//host/") := by
  decide +kernel

theorem staysOnHost_iff_of_redirect_hostRequest :
    Request.target? hostOctets = some ['/', '/', 'h', 'o', 's', 't'] ∧
      (StaysOnHost "//host/" ↔ ¬ ∃ p, hostRequest.path = '/' :: '/' :: p) := by
  have hm : bareMount.Bare := ⟨⟨rfl, rfl, rfl⟩, rfl, rfl⟩
  have htarget : Request.target? hostOctets = some ['/', '/', 'h', 'o', 's', 't'] := by
    decide +kernel
  exact ⟨htarget, (staysOnHost_iff_of_redirect hm.silent read_hostOctets htarget
    serve_hostRequest).resolve_left hm.not_dispatches⟩

/-- A client may be sent to another host. -/
theorem not_forall_staysOnHost :
    ¬ ∀ (m : Mount) (s : Setting) (octets : Octets) (id : Nat) (r : Request) (t location : Text),
      m.options.Silent → Request.read octets id = .ok r →
        Request.target? octets = some ('/' :: t) →
          (m.serve s { request := r }).result = .ok (.redirect location) →
            StaysOnHost location := by
  intro h
  obtain ⟨rest, hrest, hslash⟩ := h bareMount frenchSetting hostOctets 0 hostRequest "/host" _
    ⟨rfl, rfl, rfl⟩ read_hostOctets (by decide +kernel) serve_hostRequest
  obtain rfl := (List.cons.inj hrest).2
  exact hslash rfl

end Mount

end Webroot
