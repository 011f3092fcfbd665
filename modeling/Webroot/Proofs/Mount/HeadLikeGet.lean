import Webroot.Proofs.Mount.Answers
import Webroot.Proofs.Mount.SingleRange

/-!
# HEAD is GET without the body

A client that asks by HEAD wants to know what GET would give it. Two runs are compared here, for
requests that differ in the method alone. No step reads the method until a file or a directory is to
be answered, so up to there each step of one run is the step of the other one with the method put in
its place. From there on both methods take the same branch. Hence the two answers have one result
and one response, the body included, and the body is left out only when the response is sent.

Main statement: `Mount.serve_head`.
-/

namespace Webroot

open Http

/-! ### The method of an exchange -/

/-- The exchange with another method in its request. -/
def Exchange.withMethod (x : Exchange) (method : Method) : Exchange :=
  { x with request := { x.request with method } }

/-- The answer with another method in its request. -/
def Answer.withMethod {α : Type} (a : Answer α) (method : Method) : Answer α :=
  { a with exchange := a.exchange.withMethod method }

/-! ### Resolution -/

namespace Resolve

variable {t : FileTree} {o : MountOptions}

/-- The walk does not depend on the method. -/
theorem descend_withMethod (ho : o.Silent) (method : Method) (segs : List Text) (here : Text)
    (x : Exchange) :
    descend t o segs here (x.withMethod method) =
      (descend t o segs here x).withMethod method := by
  induction segs generalizing here x with
  | nil => rfl
  | cons base rest ih =>
    simp only [descend, ho.directory, Exchange.call]
    split_ifs
    · rfl
    · rfl
    · exact ih (here ++ base) (shift x base rest (here ++ base))

/-- The choice does not depend on the method. -/
theorem choose_withMethod (ho : o.Silent) (method : Method) (here : Text) (left : List Text)
    (x : Exchange) :
    choose t o here left (x.withMethod method) =
      (choose t o here left x).withMethod method := by
  cases left with
  | nil => rfl
  | cons base rest =>
    have hlanguages : languages o (x.withMethod method).request = languages o x.request := rfl
    rw [choose_cons, choose_cons, hlanguages]
    split
    · simp only [found, ho.file, Exchange.call]
      rfl
    · split_ifs <;> rfl

end Resolve

/-- Resolution does not depend on the method. -/
theorem resolve_withMethod {t : FileTree} {o : MountOptions} (ho : o.Silent) (method : Method)
    (root : Text) (x : Exchange) :
    resolve t o root (x.withMethod method) = (resolve t o root x).withMethod method := by
  have hwalk := Resolve.descend_withMethod (t := t) ho method
    ([] :: Resolve.segments x.request.pathInfo) root (Resolve.entered root x)
  have hentered : Resolve.entered root (x.withMethod method) =
      (Resolve.entered root x).withMethod method := rfl
  have hpath : (x.withMethod method).request.pathInfo = x.request.pathInfo := rfl
  simp only [Resolve.resolve_eq_descend, hentered, hpath, hwalk]
  generalize Resolve.descend t o _ root (Resolve.entered root x) = walked
  obtain ⟨result, exchange⟩ := walked
  cases result with
  | error f => rfl
  | ok reached => exact Resolve.choose_withMethod ho method reached.1 reached.2 exchange

/-! ### Mounts -/

namespace Mount

variable {m : Mount} {s : Setting}

/-- Entering a home directory does not depend on the method. -/
theorem enterHome_withMethod (m : Mount) (method : Method) (x : Exchange) :
    m.enterHome (x.withMethod method) =
      ((m.enterHome x).1, (m.enterHome x).2.withMethod method) := by
  have hhome : ∀ user, m.home? user (x.withMethod method) =
      ((m.home? user x).1, (m.home? user x).2.withMethod method) := by
    intro user
    rw [home?.eq_def, home?.eq_def]
    split <;> rfl
  have hpath : (x.withMethod method).request.pathInfo = x.request.pathInfo := rfl
  have hscript : (x.withMethod method).request.scriptName = x.request.scriptName := rfl
  simp only [enterHome, hpath, hscript, hhome]
  split
  · split_ifs
    · split <;> rfl
    · rfl
  · rfl

/-- A directory is answered the same for all methods for which it is answered. -/
theorem serveDirectory_withMethod (m : Mount) (method : Method) (x : Exchange) :
    m.serveDirectory s (x.withMethod method) = (m.serveDirectory s x).withMethod method := by
  have hpath : (x.withMethod method).request.path = x.request.path := rfl
  simp only [serveDirectory, hpath]
  split_ifs <;> rfl

/-- A request is resolved, and answered if it means a file, the same for GET and for HEAD. -/
theorem execute_head (hm : m.Bare) (root : Text) (x : Exchange) :
    m.execute s root (x.withMethod .head) =
      (m.execute s root (x.withMethod .get)).withMethod .head := by
  have hnone : ∀ name, HandlerTable.choose m.options.handlers m.globalHandlers name = none := by
    intro name
    rw [hm.handlers, hm.globalHandlers, choose_empty]
  simp only [execute, resolve_withMethod hm.silent, hnone, hm.silent.handler, Exchange.call]
  generalize resolve s.tree m.options root x = resolved
  obtain ⟨result, exchange⟩ := resolved
  cases result with
  | error f => rfl
  | ok what =>
    cases what with
    | directory => rfl
    | file => rfl

/-- The answer to HEAD is the answer to GET with the method put in its place. -/
theorem serve_withMethod_head (hm : m.Bare) (x : Exchange) :
    m.serve s (x.withMethod .head) = (m.serve s (x.withMethod .get)).withMethod .head := by
  have hexecute := execute_head (s := s) hm (m.enterHome x).1 (m.enterHome x).2
  simp only [serve_eq, enterHome_withMethod, hexecute]
  generalize m.execute s (m.enterHome x).1 ((m.enterHome x).2.withMethod .get) = executed
  obtain ⟨result, exchange⟩ := executed
  cases result with
  | error f => rfl
  | ok outcome =>
    cases outcome with
    | some outcome => rfl
    | none => exact serveDirectory_withMethod m .head exchange

/-- **HEAD is GET without the body.** A bare mount answers a HEAD request with the result and the
response of the GET request that differs from it in the method alone, and leaves the same request
but for the method. So what is sent for HEAD is the head of what is sent for GET and no byte
more. -/
theorem serve_head (hm : m.Bare) {r : Request} (hget : r.method = .get) (response : Response) :
    let got := m.serve s { request := r, response }
    let head := m.serve s { request := { r with method := .head }, response }
    head.result = got.result ∧ head.exchange.response = got.exchange.response ∧
      head.exchange.request = { got.exchange.request with method := .head } ∧
      ∀ now,
        (head.exchange.response.send now true).result = .ok 0 ∧
        (head.exchange.response.send now true).bytes =
          Utf8.encode (got.exchange.response.head now) ∧
        (got.exchange.response.send now false).bytes =
          (head.exchange.response.send now true).bytes ++
            (got.exchange.response.sendBody false).bytes := by
  intro got head
  have hgot : got = m.serve s (Exchange.withMethod { request := r, response } .get) := by
    rw [Exchange.withMethod, ← hget]
  have hhead : head = got.withMethod .head := by
    rw [hgot]
    exact serve_withMethod_head hm { request := r, response }
  have hresponse : head.exchange.response = got.exchange.response := by
    rw [hhead]
    rfl
  refine ⟨by rw [hhead]; rfl, hresponse, by rw [hhead]; rfl, ?_⟩
  intro now
  rw [hresponse]
  have hsent : (got.exchange.response.send now true).bytes =
      Utf8.encode (got.exchange.response.head now) := List.append_nil _
  refine ⟨rfl, hsent, ?_⟩
  rw [hsent]
  rfl

/-- The request by GET for the first byte and the last two bytes of a file. -/
def endsRequest : Request := (Request.new .get "/hello.txt").withField "Range" "bytes=0-0, -2"

theorem serve_head_endsRequest :
    let mount : Mount := { root := "/", options := {} }
    let byHead := (Request.new .head "/hello.txt").withField "Range" "bytes=0-0, -2"
    let head := mount.serve StaticFile.helloSetting { request := byHead }
    head.result = .ok .partialContent ∧
      head.exchange.response.body.length ≠ 0 ∧
      (head.exchange.response.send ⟨0, 0⟩ true).result = .ok 0 := by
  intro mount byHead head
  have hm : mount.Bare := ⟨⟨rfl, rfl, rfl⟩, rfl, rfl⟩
  obtain ⟨hresult, hresponse, -, hsent⟩ :=
    serve_head (s := StaticFile.helloSetting) hm (r := endsRequest) rfl {}
  have hgot : (mount.serve StaticFile.helloSetting { request := endsRequest }).result =
      .ok .partialContent := by
    decide +kernel
  have hlength :
      (mount.serve StaticFile.helloSetting
        { request := endsRequest }).exchange.response.body.length ≠ 0 := by
    decide +kernel
  refine ⟨hresult.trans hgot, ?_, (hsent ⟨0, 0⟩).1⟩
  rw [← hresponse] at hlength
  exact hlength

end Mount

end Webroot
