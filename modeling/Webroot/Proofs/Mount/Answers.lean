import Webroot.Proofs.Mount.Redirect

/-!
# The answers of a bare mount

A mount without callbacks and handlers answers a request in one of three ways, by what the request
leads to: with the file that it finds, with the directory in which it ends, or with the failure that
nothing was found. Each is an equation for the whole answer, request and response included, so a
statement about answers is one about plain files, about directories, and about the exchange in which
a request misses.
-/

namespace Webroot.Mount

open Http

variable {m : Mount} {s : Setting} {x : Exchange} {pre rest left : List Text} {base name : Text}

/-- Entering a home directory leaves the response as it is. -/
theorem response_enterHome (m : Mount) (x : Exchange) :
    (m.enterHome x).2.response = x.response := by
  have hhome : ∀ user, (m.home? user x).2.response = x.response := by
    intro user
    rw [home?.eq_def]
    split <;> rfl
  rw [enterHome]
  split
  · split_ifs
    · dsimp only
      split
      · exact hhome _
      · exact hhome _
    · rfl
  · rfl

/-- Entering a home directory and walking segments leave the response as it is but for the local
path. -/
theorem response_moved (m : Mount) (x : Exchange) (taken : Text) (rest : List Text) :
    (Resolve.moved (m.enterHome x).1 (m.enterHome x).2 taken rest).response =
      x.response.setFilename ((m.enterHome x).1 ++ taken) := by
  rw [Resolve.moved, response_enterHome]

/-- They do not change where a redirect to the directory leads. -/
theorem directoryLocation_moved (m : Mount) (x : Exchange) (taken : Text) (rest : List Text) :
    directoryLocation (Resolve.moved (m.enterHome x).1 (m.enterHome x).2 taken rest).request =
      directoryLocation x.request :=
  (directoryLocation_enterHome m x).2

/-- A request that finds a file for which there is no handler is answered with that file. -/
theorem serve_of_finds_plain (ho : m.options.Silent)
    (h : Resolve.Finds s.tree m.options (m.enterHome x).1 (m.enterHome x).2.request
      pre base rest name)
    (hhandler : HandlerTable.choose m.options.handlers m.globalHandlers
      (resolve s.tree m.options (m.enterHome x).1 (m.enterHome x).2).exchange.request.scriptName =
        none) :
    m.serve s x =
      servePlain s ((m.enterHome x).1 ++ (pre.flatten ++ name))
        (Resolve.moved (m.enterHome x).1 (m.enterHome x).2 (pre.flatten ++ name) rest) := by
  have hresolve := h.resolve_eq ho
  have hresult : (resolve s.tree m.options (m.enterHome x).1 (m.enterHome x).2).result =
      .ok .file := by
    rw [hresolve]
  have hpath : (resolve s.tree m.options (m.enterHome x).1
      (m.enterHome x).2).exchange.response.filename =
        some ((m.enterHome x).1 ++ (pre.flatten ++ name)) := by
    rw [hresolve]
    rfl
  have hexecute := execute_eq_servePlain ho hresult hpath hhandler
  rw [hresolve] at hexecute
  rw [serve_eq, hexecute]
  generalize servePlain s _ _ = answer
  obtain ⟨result, exchange⟩ := answer
  cases result with
  | error f => rfl
  | ok outcome => rfl

/-- A request that finds a file is answered with that file. -/
theorem serve_of_finds (hm : m.Bare)
    (h : Resolve.Finds s.tree m.options (m.enterHome x).1 (m.enterHome x).2.request
      pre base rest name) :
    m.serve s x =
      servePlain s ((m.enterHome x).1 ++ (pre.flatten ++ name))
        (Resolve.moved (m.enterHome x).1 (m.enterHome x).2 (pre.flatten ++ name) rest) := by
  refine serve_of_finds_plain hm.silent h ?_
  rw [hm.handlers, hm.globalHandlers, choose_empty]

/-- A request that ends in a directory is answered by its method. -/
theorem serve_of_endsInDirectory (hm : m.Bare)
    (h : Resolve.EndsInDirectory s.tree m.options (m.enterHome x).1 (m.enterHome x).2.request
      pre left) :
    m.serve s x =
      let ended := Resolve.moved (m.enterHome x).1 (m.enterHome x).2
        (pre.flatten ++ (left.take 1).flatten) (left.drop 1)
      match x.request.method with
      | .get | .head => m.serveDirectory s ended
      | .post => ⟨.error (.missing ended.request.path), ended⟩
      | .options => ⟨.ok .declined, ended⟩ := by
  have hserve := serve_eq m s x
  rw [execute_eq_of_endsInDirectory hm.silent h] at hserve
  exact hserve

/-- A request that misses is answered with a failure, and the response is left as it was but for the
path that was reached. -/
theorem serve_of_misses (hm : m.Bare)
    (h : Resolve.Misses s.tree m.options (m.enterHome x).1 (m.enterHome x).2.request
      pre base rest) :
    (m.serve s x).result = .error (.missing x.request.path) ∧
      (m.serve s x).exchange.response =
        x.response.setFilename ((m.enterHome x).1 ++ pre.flatten) := by
  have hpath : (m.enterHome x).2.request.path = x.request.path :=
    (directoryLocation_enterHome m x).1
  have hexecute : m.execute s (m.enterHome x).1 (m.enterHome x).2 =
      ⟨.error (.missing x.request.path), Resolve.walked m.options pre (base :: rest)
        (m.enterHome x).1 (Resolve.entered (m.enterHome x).1 (m.enterHome x).2)⟩ := by
    simp only [execute, h.resolve_eq hm.silent, hpath]
  rw [serve_eq, hexecute]
  refine ⟨rfl, ?_⟩
  rw [Resolve.walked_entered hm.silent, response_enterHome]

end Webroot.Mount
