import Webroot.Proofs.Host.Streaming
import Webroot.Proofs.Mount.Entries
import Webroot.Proofs.Mount.RedirectFollowed

/-!
# The outcome describes the response

A mount gives back an outcome beside the response that it has built, and nothing ties the two
together but the order in which each answer is made. Callbacks run before an answer is made and may
leave anything in the response: a status, a body, fields with the names that matter here. So an
answer has to write over all that its outcome speaks of. Each of the answers does: a plain file, one
range, several ranges, a redirect and a listing, whatever the response was before.

Main statement: `Mount.declined_or_describes`.
-/

namespace Webroot

open Http Text

/-- An outcome **describes** a response: it has the status of the response; a copy that is still
good is sent without a body; a redirect leads where the field says; and the length of what is sent
of a file is the length of the body as it is added up. -/
structure Describes (overflow : Overflow) (o : Outcome) (r : Response) : Prop where
  status : o.status? = some r.status
  unchanged : o = .notModified → r.body = .empty
  location : ∀ address, o = .redirect address → r.field? "Location" = some address
  length : o = .partialContent → ∃ length, r.body.length? overflow = some length ∧
    r.field? "Content-Length" = some (decimal length)

section

variable {overflow : Overflow} {r : Response}

/-- Of a whole answer nothing is said but the status. -/
theorem describes_ok (h : r.status = 200) : Describes overflow .ok r :=
  ⟨by rw [h]; rfl, nofun, nofun, nofun⟩

/-- Of a redirect the status and the address are said. -/
theorem describes_redirect {location : Text} (h : r.status = 301)
    (hlocation : r.field? "Location" = some location) :
    Describes overflow (.redirect location) r := by
  refine ⟨by rw [h]; rfl, nofun, ?_, nofun⟩
  intro address haddress
  rw [← Outcome.redirect.inj haddress]
  exact hlocation

end

variable {s : Setting} {request : Request} {response : Response} {path mime : Text} {size : Nat}
  {o : Outcome}

/-! ### Ranges -/

namespace Ranges

variable {source : Source} {span : Span} {body : Body}

/-- The body for a span is as long as the span, whatever it is read from. -/
theorem length_of_spanBody (h : spanBody source path span size = .ok body) :
    body.length = span.length := by
  rw [spanBody, readSpan] at h
  split at h
  · -- the file is sent from where it is open
    split at h
    · cases h
    · obtain rfl := Except.ok.inj h
      rfl
  · obtain ⟨bytes, hbytes, rfl⟩ := Mount.exists_of_map_eq_ok h
    split at hbytes
    · cases hbytes
    · split at hbytes
      · cases hbytes
      · rename_i got hread
        split_ifs at hbytes with hshort
        obtain rfl := Except.ok.inj hbytes
        have hle := Source.length_le_of_read hread
        rw [Body.length]
        omega

/-- The body for one span has no parts. -/
theorem ne_multipart_of_spanBody (h : spanBody source path span size = .ok body)
    (source' : Source) (parts : List BytePart) (closing : Octets) :
    body ≠ .multipart source' parts closing := by
  rintro rfl
  rw [spanBody] at h
  split at h
  · split at h <;> cases h
  · obtain ⟨bytes, -, hbytes⟩ := Mount.exists_of_map_eq_ok h
    cases hbytes

theorem length?_of_spanBody (h : spanBody source path span size = .ok body) (o : Overflow) :
    body.length? o = some span.length := by
  rw [← length_of_spanBody h]
  cases body with
  | multipart source' parts closing => exact absurd rfl (ne_multipart_of_spanBody h _ _ _)
  | _ => rfl

theorem contentLength_of_single {spec : RangeSpec} (overflow : Overflow)
    (h : (single source path mime size spec response).result = .ok o) :
    ∃ length,
      (single source path mime size spec response).response.body.length? overflow = some length ∧
      (single source path mime size spec response).response.field? "Content-Length" =
        some (decimal length) := by
  obtain ⟨f, hreply⟩ | ⟨span, body, -, hbody, hreply⟩ :=
    single_cases source path mime size spec response
  · rw [hreply] at h
    cases h
  · rw [hreply]
    exact ⟨span.length, length?_of_spanBody hbody _, contentLength_setSpan _ _ _ _ _⟩

theorem contentLength_of_several {specs : List RangeSpec}
    (h : (several s source mime size specs response).result = .ok o) :
    ∃ length,
      (several s source mime size specs response).response.body.length? s.overflow = some length ∧
      (several s source mime size specs response).response.field? "Content-Length" =
        some (decimal length) := by
  obtain ⟨f, hreply⟩ | ⟨spans, length, hlength, hreply⟩ :=
    several_cases s source mime size specs response
  · rw [hreply] at h
    cases h
  · rw [hreply]
    exact ⟨length, hlength, contentLength_setSpans _ _ _ _⟩

end Ranges

theorem contentLength_of_serveRanges
    (h : (serveRanges s request response path size mime).result = .ok o) :
    ∃ length,
      (serveRanges s request response path size mime).response.body.length? s.overflow =
        some length ∧
      (serveRanges s request response path size mime).response.field? "Content-Length" =
        some (decimal length) := by
  obtain ⟨f, hreply⟩ | ⟨source, spec, hreply⟩ | ⟨source, specs, hreply⟩ :=
    serveRanges_cases s request response path size mime
  · rw [hreply] at h
    cases h
  · rw [hreply] at h ⊢
    exact Ranges.contentLength_of_single _ h
  · rw [hreply] at h ⊢
    exact Ranges.contentLength_of_several h

/-! ### Plain files -/

/-- The outcome of a request for a plain file describes the response if the length of what is sent
of the file is right. -/
theorem PlainOutcome.describes {overflow : Overflow} (h : PlainOutcome o response)
    (hlength : o = .partialContent → ∃ length, response.body.length? overflow = some length ∧
      response.field? "Content-Length" = some (decimal length)) :
    Describes overflow o response := by
  cases h with
  | whole hstatus => exact describes_ok hstatus
  | ranges hstatus => exact ⟨by rw [hstatus]; rfl, nofun, nofun, hlength⟩
  | unchanged hstatus hbody => exact ⟨by rw [hstatus]; rfl, fun _ => hbody, nofun, nofun⟩

namespace StaticFile

theorem contentLength_of_get (h : (get s request response path).result = .ok .partialContent) :
    ∃ length, (get s request response path).response.body.length? s.overflow = some length ∧
      (get s request response path).response.field? "Content-Length" = some (decimal length) := by
  obtain ⟨e, -, hreply⟩ | ⟨item, -, hreply | hreply | ⟨e, -, hreply⟩ | ⟨source, -, hreply⟩⟩ :=
    get_cases s request response path
  · rw [hreply] at h
    cases h
  · rw [hreply] at h
    cases h
  · rw [hreply] at h ⊢
    exact contentLength_of_serveRanges h
  · rw [hreply] at h
    cases h
  · rw [hreply] at h
    cases h

/-- The outcome of a request for a plain file describes the response. -/
theorem describes_serve (h : (serve s request response path).result = .ok o) :
    Describes s.overflow o (serve s request response path).response := by
  refine (serve_outcome h).describes ?_
  rintro rfl
  rw [serve] at h ⊢
  split at h
  · exact contentLength_of_get h
  · exact contentLength_of_get h
  · cases h
  · cases h

end StaticFile

/-! ### Directories -/

namespace Mount

variable {m : Mount} {x : Exchange}

/-- The outcome of a request for a directory describes the response. -/
theorem describes_serveDirectory (h : (m.serveDirectory s x).result = .ok o) :
    Describes s.overflow o (m.serveDirectory s x).exchange.response := by
  have hlocation : ∀ address, o = .redirect address →
      (m.serveDirectory s x).exchange.response.field? "Location" = some address := by
    rintro address rfl
    exact location_of_redirect_serveDirectory h
  rw [serveDirectory] at h hlocation ⊢
  split_ifs at h hlocation ⊢ with hend hindex
  · obtain rfl := Except.ok.inj h
    exact describes_redirect rfl (hlocation _ rfl)
  · cases hes : Listing.entries s.tree m.options.hidden (x.response.filename.getD []) with
    | error f =>
      simp only [serveListing, hes] at h
      cases h
    | ok es =>
      simp only [serveListing_eq hes] at h ⊢
      obtain rfl := Except.ok.inj h
      exact describes_ok rfl

/-! ### Mounts -/

section NoHandlers

variable (hhandlers : m.options.handlers = ∅) (hglobal : m.globalHandlers = ∅)

include hhandlers hglobal

/-- Whatever callbacks have made of the exchange, a file that is found is answered with an outcome
that describes the response. -/
theorem describes_execute {root : Text} (h : (m.execute s root x).result = .ok (some o)) :
    Describes s.overflow o (m.execute s root x).exchange.response := by
  simp only [execute, hhandlers, hglobal, choose_empty] at h ⊢
  split at h
  · cases h
  · cases h
  · obtain ⟨outcome, hserve, hsome⟩ := exists_of_map_eq_ok h
    obtain rfl := Option.some.inj hsome
    exact StaticFile.describes_serve hserve

/-- **Outcomes.** A mount without handlers, whatever its callbacks do to the request and the
response, and whatever the response was to begin with, gives back an outcome that describes the
response. Only requests for the methods that are possible are declined, where they mean a
directory. -/
theorem declined_or_describes (h : (m.serve s x).result = .ok o) :
    (o = .declined ∧ x.request.method = .options) ∨
      Describes s.overflow o (m.serve s x).exchange.response := by
  simp only [serve_eq] at h ⊢
  split at h
  · cases h
  · rename_i outcome hexecute
    obtain rfl := Except.ok.inj h
    exact .inr (describes_execute hhandlers hglobal hexecute)
  · -- a directory is answered by the method that the request had before the callbacks
    cases hmethod : x.request.method with
    | get | head =>
      simp only [hmethod] at h ⊢
      exact .inr (describes_serveDirectory h)
    | post =>
      rw [hmethod] at h
      cases h
    | options =>
      rw [hmethod] at h
      exact .inl ⟨(Except.ok.inj h).symm, rfl⟩

end NoHandlers

/-- A callback that leaves a status, a body and fields of its own. -/
def meddle : Callback := fun request response =>
  (request, (((response.setStatus 500).setField "content-length" "99").setField "Location"
    "/elsewhere").setBody (.bytes [1, 2, 3]))

/-- A mount that calls it for every directory, for the file and before the answer. -/
def meddlingMount : Mount :=
  { root := "/"
    options :=
      { directoryCallback := some meddle, fileCallback := some meddle,
        handlerCallback := some meddle } }

/-- A request for all but the last of the five bytes of a file. -/
def mostRequest : Request := (Request.new .get "/hello.txt").withField "Range" "bytes=0-3"

theorem declined_or_describes_meddlingMount :
    let answer := meddlingMount.serve StaticFile.helloSetting { request := mostRequest }
    answer.result = .ok .partialContent ∧
      Describes .abort .partialContent answer.exchange.response ∧
      answer.exchange.response.fields.head? =
        some (("content-length" : Text), ("4" : Text)) := by
  intro answer
  have hresult : answer.result = .ok .partialContent := by decide +kernel
  have hdescribes := (declined_or_describes rfl rfl hresult).resolve_left nofun
  exact ⟨hresult, hdescribes, by decide +kernel⟩

end Mount

end Webroot
