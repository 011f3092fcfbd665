import Mathlib.Control.Monad.Basic
import Webroot.Files.Snapshot
import Webroot.Mount.Service
import Webroot.Proofs.Mount.Containment
import Webroot.Proofs.Mount.Outcome

/-!
# Refused requests

A mount without callbacks and handlers answers that nothing was found exactly when the request
misses, or when it ends in a directory and its method is POST: plain files and listings fail in
other ways only.

So a name that the walk must not go through makes a request fail where the walk comes to it. The
walk does not come to the names after the segment for which a file is found, to those after a lone
slash, and to those that count as walked already, such as the name of a user whose home was
entered. Main statement: `notFound_iff_of_forbidden`.
-/

namespace Webroot

open Http

/-- The result of an answer is that **nothing was found**. -/
def NotFound {α : Type} (result : Except Failure α) : Prop :=
  ∃ note, result = .error (.notFound note)

theorem notFound_missing {α : Type} (path : Text) :
    NotFound (.error (.missing path) : Except Failure α) :=
  ⟨_, rfl⟩

/-! ### Plain files and directories -/

theorem not_notFound_spanBody (source : Source) (path : Text) (span : Span) (size : Nat) :
    ¬ NotFound (Ranges.spanBody source path span size) := by
  rintro ⟨note, h⟩
  rw [Ranges.spanBody, Ranges.readSpan] at h
  split at h
  · -- of a span that ends the file only the seek can fail
    split at h <;> cases h
  · split at h
    · cases h
    · split at h
      · cases h
      · split at h <;> cases h

theorem not_notFound_single (source : Source) (path mime : Text) (size : Nat) (spec : RangeSpec)
    (response : Response) :
    ¬ NotFound (Ranges.single source path mime size spec response).result := by
  rintro ⟨note, h⟩
  rw [Ranges.single] at h
  split at h
  · cases h
  · split at h
    · rename_i f hbody
      obtain rfl : f = .notFound note := Except.error.inj h
      exact not_notFound_spanBody _ _ _ _ ⟨note, hbody⟩
    · cases h

theorem not_notFound_several (s : Setting) (source : Source) (mime : Text) (size : Nat)
    (specs : List RangeSpec) (response : Response) :
    ¬ NotFound (Ranges.several s source mime size specs response).result := by
  rintro ⟨note, h⟩
  rw [Ranges.several] at h
  split at h
  · cases h
  · dsimp only at h
    split at h <;> cases h

theorem not_notFound_serveRanges (s : Setting) (request : Request) (response : Response)
    (path : Text) (size : Nat) (mime : Text) :
    ¬ NotFound (serveRanges s request response path size mime).result := by
  rintro ⟨note, h⟩
  simp only [serveRanges] at h
  split at h
  · cases h
  · split at h
    · cases h
    · -- by the number of ranges: none, one, several
      split at h
      · cases h
      · exact not_notFound_single _ _ _ _ _ _ ⟨note, h⟩
      · exact not_notFound_several _ _ _ _ _ _ ⟨note, h⟩

/-- What is there and cannot be opened is found. -/
theorem not_notFound_of_ofItem_eq_error {item : Item} {e : LookupError}
    (h : Source.ofItem item = .error e) (path : Text) :
    ¬ NotFound (.error (StaticFile.lookupFailure path e) : Except Failure Outcome) := by
  rintro ⟨note, hnote⟩
  rw [Source.ofItem] at h
  split at h <;> cases h <;> cases hnote

/-- A plain file that is there is found. -/
theorem not_notFound_serve {s : Setting} {path : Text} (hfile : s.tree.isFile path = true)
    (request : Request) (response : Response) :
    ¬ NotFound (StaticFile.serve s request response path).result := by
  obtain ⟨item, hitem, -⟩ := FileTree.isFile_iff.mp hfile
  have hget : ¬ NotFound (StaticFile.get s request response path).result := by
    obtain ⟨e, hstat, -⟩ | ⟨item', -, hreply | hreply | ⟨e, hsource, hreply⟩ |
      ⟨source, -, hreply⟩⟩ := StaticFile.get_cases s request response path
    · cases hitem.symm.trans hstat
    · rw [hreply]
      rintro ⟨note, h⟩
      cases h
    · rw [hreply]
      exact not_notFound_serveRanges _ _ _ _ _ _
    · rw [hreply]
      exact not_notFound_of_ofItem_eq_error hsource request.path
    · rw [hreply]
      rintro ⟨note, h⟩
      cases h
  rw [StaticFile.serve]
  split
  · exact hget
  · exact hget
  · rintro ⟨note, h⟩
    cases h
  · rintro ⟨note, h⟩
    cases h

/-- A directory is redirected to, forbidden or listed, but always found. -/
theorem not_notFound_serveDirectory (m : Mount) (s : Setting) (x : Exchange) :
    ¬ NotFound (m.serveDirectory s x).result := by
  rintro ⟨note, h⟩
  rw [Mount.serveDirectory] at h
  -- the cases are: redirected, not to be listed, listed
  split at h
  · cases h
  · split at h
    · cases h
    · rw [serveListing] at h
      split at h
      · rename_i f hentries
        rw [Listing.entries] at hentries
        split at hentries
        · cases hentries
          cases h
        · cases hentries
      · cases h

/-! ### Which requests find nothing -/

namespace Mount

/-- A mount is **bare** when it has no callback and no handler. -/
structure Bare (m : Mount) : Prop where
  silent : m.options.Silent
  handlers : m.options.handlers = ∅
  globalHandlers : m.globalHandlers = ∅

theorem choose_empty (name : Text) : HandlerTable.choose ∅ ∅ name = none := by
  simp [HandlerTable.choose, HandlerTable.find?]

section Execute

variable {m : Mount} {s : Setting} {root : Text} {x : Exchange} {pre rest left : List Text}
  {base name : Text}

/-- A request that finds a file is answered by that file. -/
theorem execute_of_finds (hm : m.Bare)
    (h : Resolve.Finds s.tree m.options root x.request pre base rest name) :
    ∃ result, (m.execute s root x).result = result.map some ∧ ¬ NotFound result := by
  have hresolve := h.resolve_eq hm.silent
  have hfile : s.tree.isFile (root ++ (pre.flatten ++ name)) = true := by
    rw [← List.append_assoc]
    exact (Resolve.pick_eq_some h.picked).1
  have hresult : (resolve s.tree m.options root x).result = .ok .file := by rw [hresolve]
  have hpath : (resolve s.tree m.options root x).exchange.response.filename =
      some (root ++ (pre.flatten ++ name)) := by
    rw [hresolve]
    rfl
  rw [execute_eq_servePlain hm.silent hresult hpath
    (by rw [hm.handlers, hm.globalHandlers, choose_empty])]
  exact ⟨_, rfl, not_notFound_serve hfile _ _⟩

theorem execute_of_endsInDirectory (hm : m.Bare)
    (h : Resolve.EndsInDirectory s.tree m.options root x.request pre left) :
    (m.execute s root x).result = .ok none := by
  rw [execute, h.resolve_eq hm.silent]

theorem execute_of_misses (hm : m.Bare)
    (h : Resolve.Misses s.tree m.options root x.request pre base rest) :
    (m.execute s root x).result = .error (.missing x.request.path) := by
  have hresolve := h.resolve_result hm.silent
  simp only [execute, hresolve]

end Execute

/-- What is made of the result of resolving and answering. -/
theorem serve_eq (m : Mount) (s : Setting) (x : Exchange) :
    m.serve s x =
      let executed := m.execute s (m.enterHome x).1 (m.enterHome x).2
      match executed.result with
      | .error f => ⟨.error f, executed.exchange⟩
      | .ok (some outcome) => ⟨.ok outcome, executed.exchange⟩
      | .ok none =>
        match x.request.method with
        | .get | .head => m.serveDirectory s executed.exchange
        | .post => ⟨.error (.missing executed.exchange.request.path), executed.exchange⟩
        | .options => ⟨.ok .declined, executed.exchange⟩ := rfl

variable {m : Mount} {s : Setting} {x : Exchange}

section Serve

variable {pre rest left : List Text} {base name : Text}

theorem not_notFound_of_finds (hm : m.Bare)
    (h : Resolve.Finds s.tree m.options (m.enterHome x).1 (m.enterHome x).2.request
      pre base rest name) : ¬ NotFound (m.serve s x).result := by
  obtain ⟨result, hexecute, hfound⟩ := execute_of_finds hm h
  rw [serve_eq]
  cases result with
  | error f => simpa only [hexecute, Except.map] using hfound
  | ok outcome =>
    simp only [hexecute, Except.map]
    rintro ⟨note, hnote⟩
    cases hnote

theorem notFound_of_misses (hm : m.Bare)
    (h : Resolve.Misses s.tree m.options (m.enterHome x).1 (m.enterHome x).2.request
      pre base rest) : NotFound (m.serve s x).result := by
  simp only [serve_eq, execute_of_misses hm h]
  exact notFound_missing _

/-- Of the requests that end in a directory only those by POST find nothing. -/
theorem notFound_iff_of_endsInDirectory (hm : m.Bare)
    (h : Resolve.EndsInDirectory s.tree m.options (m.enterHome x).1 (m.enterHome x).2.request
      pre left) : NotFound (m.serve s x).result ↔ x.request.method = .post := by
  simp only [serve_eq, execute_of_endsInDirectory hm h]
  cases hmethod : x.request.method with
  | get => simpa using not_notFound_serveDirectory m s _
  | head => simpa using not_notFound_serveDirectory m s _
  | post => simpa using notFound_missing _
  | options =>
    have hdeclined : ¬ NotFound (.ok .declined : Except Failure Outcome) := by
      rintro ⟨note, hnote⟩
      cases hnote
    simpa using hdeclined

end Serve

end Mount

/-! ### Forbidden names -/

namespace Resolve

/-- A name is **forbidden** when it is dots, holds a NUL, or is not empty and hidden. -/
def Forbidden (hidden : HiddenNames) (n : Text) : Prop :=
  n = ['.'] ∨ n = ['.', '.'] ∨ '\x00' ∈ n ∨ n ≠ [] ∧ hidden.hides n = true

theorem refuses_of_forbidden {hidden : HiddenNames} {n : Text} (h : Forbidden hidden n) :
    refuses hidden ('/' :: n) = true := by
  rcases h with rfl | rfl | hnul | ⟨-, hhidden⟩
  · rfl
  · rfl
  · simp [refuses_slash, hnul]
  · simp [refuses_slash, hhidden]

/-- Where the walk stops before an allowed segment or before none, a forbidden name is still to
come, or it is not in the path info at all. -/
theorem Reaches.mem_tail_of_forbidden {t : FileTree} {o : MountOptions} {root n : Text}
    {r : Request} {pre left : List Text} (h : Reaches t o root r pre left)
    (hallowed : left.head?.any (refuses o.hidden) = false) (hn : Forbidden o.hidden n) :
    '/' :: n ∈ left.tail ∨ n ∉ Path.names r.pathInfo := by
  by_cases hmem : n ∈ Path.names r.pathInfo
  · have hsegs : '/' :: n ∈ pre ++ left := by
      rw [← h.eq_append, segments_eq_map_names]
      simpa using hmem
    have hrefused := refuses_of_forbidden hn
    -- all that was passed is allowed, and so is the segment before which the walk stops
    rcases List.mem_append.mp hsegs with hpre | hleft
    · rw [h.passes.allowed _ hpre] at hrefused
      cases hrefused
    · cases left with
      | nil => cases hleft
      | cons base rest =>
        rcases List.mem_cons.mp hleft with rfl | hrest
        · rw [List.head?_cons, Option.any_some, hrefused] at hallowed
          cases hallowed
        · exact .inl hrest
  · exact .inr hmem

end Resolve

namespace Mount

/-- **Refusal.** A request with a forbidden name finds nothing, except where a file is found for
it, or it ends in a directory and its method is not POST, and the forbidden name is one to which
the walk does not come: it is after the segment for which the file or the index was sought, or it
is not in the path info that is walked. -/
theorem notFound_iff_of_forbidden {m : Mount} {s : Setting} {x : Exchange} {n : Text}
    (hm : m.Bare) (hn : Resolve.Forbidden m.options.hidden n) :
    NotFound (m.serve s x).result ↔
      ¬ ((∃ pre base rest name,
          Resolve.Finds s.tree m.options (m.enterHome x).1 (m.enterHome x).2.request
            pre base rest name ∧
          ('/' :: n ∈ rest ∨ n ∉ Path.names (m.enterHome x).2.request.pathInfo)) ∨
        x.request.method ≠ .post ∧ ∃ pre left,
          Resolve.EndsInDirectory s.tree m.options (m.enterHome x).1 (m.enterHome x).2.request
            pre left ∧
          ('/' :: n ∈ left.tail ∨ n ∉ Path.names (m.enterHome x).2.request.pathInfo)) := by
  constructor
  · rintro hnot (⟨pre, base, rest, name, h, -⟩ | ⟨hpost, pre, left, h, -⟩)
    · exact not_notFound_of_finds hm h hnot
    · exact hpost ((notFound_iff_of_endsInDirectory hm h).mp hnot)
  · intro hnone
    rcases Resolve.finds_or_endsInDirectory_or_misses s.tree m.options (m.enterHome x).1
      (m.enterHome x).2.request with
      ⟨pre, base, rest, name, h⟩ | ⟨pre, left, h⟩ | ⟨pre, base, rest, h⟩
    · have htail := h.reaches.mem_tail_of_forbidden (by simp [h.allowed]) hn
      exact absurd (.inl ⟨pre, base, rest, name, h, htail⟩) hnone
    · rw [notFound_iff_of_endsInDirectory hm h]
      by_contra hpost
      have hallowed : left.head?.any (Resolve.refuses m.options.hidden) = false := by
        rcases h.unpicked with rfl | ⟨hhead, hallowed, -⟩
        · rfl
        · simp [hhead, hallowed]
      have htail := h.reaches.mem_tail_of_forbidden hallowed hn
      exact hnone (.inr ⟨hpost, pre, left, h, htail⟩)
    · exact notFound_of_misses hm h

/-- A request for the directory above a page. -/
def upExchange : Exchange := { request := .new .get "/page.html/.." }

/-- The page is sent, since the walk stops before it. -/
theorem serve_upExchange : (frenchMount.serve frenchSetting upExchange).result = .ok .ok := by
  decide +kernel

theorem notFound_iff_of_forbidden_upExchange :
    Resolve.Forbidden frenchMount.options.hidden ['.', '.'] ∧
      ((∃ pre base rest name,
          Resolve.Finds frenchSetting.tree frenchMount.options "/www" upExchange.request
            pre base rest name ∧
          (['/', '.', '.'] ∈ rest ∨ ['.', '.'] ∉ Path.names upExchange.request.pathInfo)) ∨
        upExchange.request.method ≠ .post ∧ ∃ pre left,
          Resolve.EndsInDirectory frenchSetting.tree frenchMount.options "/www"
            upExchange.request pre left ∧
          (['/', '.', '.'] ∈ left.tail ∨ ['.', '.'] ∉ Path.names upExchange.request.pathInfo)) := by
  have hdots : Resolve.Forbidden frenchMount.options.hidden ['.', '.'] := .inr (.inl rfl)
  refine ⟨hdots, ?_⟩
  by_contra hnone
  have hnot := (notFound_iff_of_forbidden (s := frenchSetting) (x := upExchange)
    ⟨⟨rfl, rfl, rfl⟩, rfl, rfl⟩ hdots).mpr hnone
  rw [serve_upExchange] at hnot
  obtain ⟨note, hnote⟩ := hnot
  cases hnote

/-- A request with a forbidden name may be answered. -/
theorem not_forall_notFound :
    ¬ ∀ (m : Mount) (s : Setting) (x : Exchange) (n : Text), m.Bare →
      Path.isAbsolute x.request.path = true → x.request.scriptName = [] →
        x.request.pathInfo = x.request.path → Resolve.Forbidden m.options.hidden n →
          n ∈ Path.names x.request.path → NotFound (m.serve s x).result := by
  intro h
  obtain ⟨note, hnote⟩ := h frenchMount frenchSetting upExchange ['.', '.']
    ⟨⟨rfl, rfl, rfl⟩, rfl, rfl⟩ (by decide +kernel) rfl rfl (.inr (.inl rfl)) (by decide +kernel)
  rw [serve_upExchange] at hnote
  cases hnote

end Mount

end Webroot
