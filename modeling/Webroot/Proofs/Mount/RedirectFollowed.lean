import Webroot.Proofs.Mount.Answers
import Webroot.Proofs.Url.RoundTrip

/-!
# Redirects, followed

A client that is redirected sends a second request, for the address that it was given. The address
is made from the *decoded* path, which is written again, and from the query string *as it was sent*;
the second request decodes the path once more. Nothing is lost on the way: the second request is for
the same path with a slash added, and has the same query string (`new_directoryLocation`). A path
that ends in a slash is never redirected, so the client does not go round in circles.

All of this is about what the mount itself does. A handler may answer with any redirect, and the
answer is passed on as the handler made it, with a field for the address or without one.

Main statements: `Mount.redirect_followed` and `Mount.not_forall_redirect_followed`.
-/

namespace Webroot

open Http Text

namespace Mount

variable {m : Mount} {s : Setting} {x : Exchange} {location : Text}

/-! ### The address of a directory, read -/

/-- The request for the address of a directory is for the path with a slash added, and has the query
string of the request that was redirected. -/
theorem new_directoryLocation (r : Request) :
    (Request.new .get (directoryLocation r)).path = r.path ++ ['/'] ∧
      (Request.new .get (directoryLocation r)).queryString = r.queryString := by
  have hpath : Url.unescape (Url.escapePath r.path ++ ['/']) = r.path ++ ['/'] := by
    rw [Url.unescape_escapePath_append]
    rfl
  -- the question mark of a path is escaped, so the first one begins the query string
  have hmark : '?' ∉ Url.escapePath r.path ++ ['/'] := by
    rw [List.mem_append, not_or]
    exact ⟨Url.not_mem_escapePath (by decide +kernel) _, by decide⟩
  rw [directoryLocation, Request.new]
  cases hquery : r.queryString with
  | none => simp only [cut_eq_none hmark, hpath, and_self]
  | some q =>
    have hcut := cut_append_cons hmark q
    rw [List.append_assoc, List.singleton_append] at hcut
    simp only [hcut, hpath, and_self]

/-! ### Redirects of a mount -/

/-- A redirect that no handler made is that of a directory. -/
theorem exists_endsInDirectory_of_redirect (ho : m.options.Silent)
    (h : (m.serve s x).result = .ok (.redirect location)) (hown : ¬m.Dispatches s x) :
    ∃ pre left, Resolve.EndsInDirectory s.tree m.options (m.enterHome x).1
      (m.enterHome x).2.request pre left := by
  rcases Resolve.finds_or_endsInDirectory_or_misses s.tree m.options (m.enterHome x).1
    (m.enterHome x).2.request with
    ⟨pre, base, rest, name, hfinds⟩ | ⟨pre, left, hdir⟩ | ⟨pre, base, rest, hmiss⟩
  · exact absurd (dispatches_of_finds ho h hfinds) hown
  · exact ⟨pre, left, hdir⟩
  · simp only [serve_eq, execute, hmiss.resolve_result ho] at h
    cases h

/-- The redirect of a directory has a field for the address that it leads to. -/
theorem location_of_redirect_serveDirectory
    (h : (m.serveDirectory s x).result = .ok (.redirect location)) :
    (m.serveDirectory s x).exchange.response.field? "Location" = some location := by
  obtain ⟨rfl, hend⟩ := eq_of_redirect_serveDirectory h
  have hname : ¬SameLetters "Content-Type" "Location" := by decide
  rw [serveDirectory, hend]
  exact (Response.field?_setField_of_ne hname _ _).trans (Response.field?_setField _ _ _)

/-- A redirect that no handler made leads to the directory of the request, has a field that says so,
and is only for paths without a slash at the end. -/
theorem location_of_redirect (ho : m.options.Silent)
    (h : (m.serve s x).result = .ok (.redirect location)) (hown : ¬m.Dispatches s x) :
    location = directoryLocation x.request ∧ Path.endsInSlash x.request.path = false ∧
      (m.serve s x).exchange.response.field? "Location" = some location := by
  obtain ⟨pre, left, hdir⟩ := exists_endsInDirectory_of_redirect ho h hown
  obtain ⟨hlocation, hend⟩ := eq_of_endsInDirectory ho h hdir
  refine ⟨hlocation, hend, ?_⟩
  simp only [serve_eq, execute_eq_of_endsInDirectory ho hdir] at h ⊢
  cases hmethod : x.request.method with
  | get | head =>
    simp only [hmethod] at h ⊢
    exact location_of_redirect_serveDirectory h
  | post | options =>
    rw [hmethod] at h
    cases h

/-- **Redirects, followed.** A redirect that no handler made has a field with the address that it
leads to. The request for that address is for the path with a slash added, and has the same query
string. If it is redirected again, then by a handler, whatever the tree has become meanwhile. -/
theorem redirect_followed {target : Text} (ho : m.options.Silent)
    (h : (m.serve s { request := .new .get target }).result = .ok (.redirect location))
    (hown : ¬m.Dispatches s { request := .new .get target }) :
    (m.serve s { request := .new .get target }).exchange.response.field? "Location" =
        some location ∧
      (Request.new .get location).path = (Request.new .get target).path ++ ['/'] ∧
      (Request.new .get location).queryString = (Request.new .get target).queryString ∧
      ∀ s' again, (m.serve s' { request := .new .get location }).result = .ok (.redirect again) →
        m.Dispatches s' { request := .new .get location } := by
  obtain ⟨rfl, -, hfield⟩ := location_of_redirect ho h hown
  obtain ⟨hpath, hquery⟩ := new_directoryLocation (Request.new .get target)
  refine ⟨hfield, hpath, hquery, ?_⟩
  intro s' again hagain
  by_contra hown'
  obtain ⟨-, hend, -⟩ := location_of_redirect ho hagain hown'
  -- the second path ends in the slash that was added
  dsimp only at hend
  rw [hpath] at hend
  simp [Path.endsInSlash] at hend

/-- A directory with a question mark, a percent sign and a blank in its name. -/
def oddSetting : Setting :=
  { tree := .ofFiles ⟨0, 0⟩ [("/www/a?b% c/d", [])], now := ⟨0, 0⟩, process := 0 }

theorem redirect_followed_oddSetting :
    (Request.new .get "/a%3Fb%25%20c/?q=%31+2").path = "/a?b% c" ++ ['/'] ∧
      ∀ again,
        (bareMount.serve oddSetting { request := .new .get "/a%3Fb%25%20c/?q=%31+2" }).result ≠
          .ok (.redirect again) := by
  have hm : bareMount.Bare := ⟨⟨rfl, rfl, rfl⟩, rfl, rfl⟩
  have hserve : (bareMount.serve oddSetting
      { request := .new .get "/a%3Fb%25 c?q=%31+2" }).result =
        .ok (.redirect "/a%3Fb%25%20c/?q=%31+2") := by
    decide +kernel
  have hpath : (Request.new .get "/a%3Fb%25 c?q=%31+2").path = "/a?b% c" := by decide +kernel
  obtain ⟨-, hfollowed, -, hloop⟩ := redirect_followed hm.silent hserve hm.not_dispatches
  rw [hpath] at hfollowed
  exact ⟨hfollowed, fun again hagain => hm.not_dispatches (hloop oddSetting again hagain)⟩

/-- A handler that redirects and sets no field. -/
def strayHandler : Handler :=
  { name := "stray"
    run := fun _ request response _ => (.ok (.redirect "/a.cgi/"), request, response) }

/-- A mount with that handler. -/
def strayMount : Mount :=
  { root := "/www", options := { handlers := HandlerTable.add ∅ "cgi" strayHandler } }

/-- A file for it. -/
def straySetting : Setting :=
  { tree := .ofFiles ⟨0, 0⟩ [("/www/a.cgi", [])], now := ⟨0, 0⟩, process := 0 }

/-- A redirect that a handler made may have no field with the address. -/
theorem not_forall_redirect_followed :
    ¬ ∀ (m : Mount) (s : Setting) (target location : Text), m.options.Silent →
        (m.serve s { request := .new .get target }).result = .ok (.redirect location) →
          (m.serve s { request := .new .get target }).exchange.response.field? "Location" =
              some location ∧
            (Request.new .get location).path = (Request.new .get target).path ++ ['/'] ∧
            (Request.new .get location).queryString = (Request.new .get target).queryString ∧
            ∀ again, (m.serve s { request := .new .get location }).result ≠
              .ok (.redirect again) := by
  intro h
  have hserve : (strayMount.serve straySetting { request := .new .get "/a.cgi" }).result =
      .ok (.redirect "/a.cgi/") := by
    decide +kernel
  obtain ⟨hfield, -⟩ := h strayMount straySetting "/a.cgi" "/a.cgi/" ⟨rfl, rfl, rfl⟩ hserve
  have hnone : (strayMount.serve straySetting
      { request := .new .get "/a.cgi" }).exchange.response.field? "Location" = none := by
    decide +kernel
  rw [hnone] at hfield
  cases hfield

end Mount

end Webroot
