import Webroot.Proofs.Mount.Outcome
import Webroot.Proofs.Mount.SeveralRanges

/-!
# Downloads taken up again

A client that holds the start of a file asks for the rest, and says with If-Range which version of
the file it has. Here If-Range is one more way to say that the client's copy is still good. When
it does not hold (the value is then **stale**) the request goes on as if it had not been sent:
neither the whole file nor the ranges depend on it.

Main statements: `StaticFile.serve_of_stale` says what becomes of the ranges, and
`StaticFile.not_forall_whole_of_stale` that the whole file need not be sent.
-/

namespace Webroot

open Http Text

/-! ### Stale values -/

/-- The value of an If-Range field is **stale** for a file: a date before the second of the last
change, or no date and a list without the tag of the file. -/
def Http.StaleIfRange (value : Text) (changed : Int) (tag : Text) : Prop :=
  (∃ date, HttpDate.read? value = some date ∧ date.seconds < changed) ∨
    (HttpDate.read? value = none ∧ tag ∉ listElements value)

/-- Stale values are those that do not hold. -/
theorem Http.staleIfRange_iff {value : Text} {changed : Int} {tag : Text} :
    StaleIfRange value changed tag ↔ ifRangeHolds value changed tag = false := by
  rw [StaleIfRange, ifRangeHolds]
  cases hdate : HttpDate.read? value with
  | none => simp
  | some date => simp [notBefore]

namespace Http.Request

/-- The request without one of its header fields. -/
def withoutField (r : Request) (name : Text) : Request :=
  let values := r.fields.values.erase (lower name)
  { r with fields := { values, languages := languagesOf values, languages_eq := rfl } }

@[simp]
theorem field?_withoutField (r : Request) (name : Text) :
    (r.withoutField name).field? name = none := by
  simp [field?, withoutField]

theorem field?_withoutField_of_ne {name other : Text} (h : ¬SameLetters name other)
    (r : Request) : (r.withoutField name).field? other = r.field? other := by
  rw [SameLetters] at h
  simp [field?, withoutField, Std.ExtTreeMap.getElem?_erase, h]

/-- A stale If-Range field says nothing of the client's copy. -/
theorem notModified_of_stale {r : Request} {value : Text}
    (hvalue : r.field? "if-range" = some value) {changed : Int} {tag : Text}
    (hstale : StaleIfRange value changed tag) :
    r.notModified changed tag = (r.withoutField "if-range").notModified changed tag := by
  have hholds := staleIfRange_iff.mp hstale
  rw [notModified, hvalue, Option.any_some, hholds, notModified, field?_withoutField,
    field?_withoutField_of_ne (by decide), field?_withoutField_of_ne (by decide)]
  rfl

/-- A request without other conditions has none without its If-Range field. -/
theorem unconditional_withoutField {r : Request} (hsince : r.field? "if-modified-since" = none)
    (hmatch : r.field? "if-none-match" = none) : (r.withoutField "if-range").Unconditional where
  ifRange := field?_withoutField r _
  ifModifiedSince := by rw [field?_withoutField_of_ne (by decide), hsince]
  ifNoneMatch := by rw [field?_withoutField_of_ne (by decide), hmatch]

end Http.Request

/-! ### The outcome of a range field -/

theorem Ranges.entityTag_setSpan (response : Response) (mime : Text) (span : Span) (size : Nat)
    (body : Body) :
    (setSpan response mime span size body).field? "ETag" = response.field? "ETag" := by
  rw [setSpan, Response.field?_setBody, Response.field?_setField_of_ne (by decide),
    Response.field?_setField_of_ne (by decide), Response.field?_setField_of_ne (by decide)]
  rfl

theorem Ranges.entityTag_setSpans (response : Response) (boundary : Text) (length : Nat)
    (body : Body) :
    (setSpans response boundary length body).field? "ETag" = response.field? "ETag" := by
  rw [setSpans, Response.field?_setBody, Response.field?_removeField_of_ne (by decide),
    Response.field?_setField_of_ne (by decide), Response.field?_setField_of_ne (by decide)]
  rfl

section Outcome

variable {s : Setting} {request : Request} {path : Text} {content : Octets} {value : Text}
  (hsource : s.tree.source path = .ok (.content content))
  (hvalue : request.field? "range" = some value) (response : Response) (mime : Text)

include hsource hvalue

/-- A range field that cannot be read, or that names no range. -/
theorem serveRanges_of_bad
    (hbad : RangeSpec.parse? value = none ∨ RangeSpec.parse? value = some []) (size : Nat) :
    serveRanges s request response path size mime = ⟨.error (.badRange value), response⟩ := by
  rcases hbad with hspecs | hspecs
  · simp only [serveRanges, hvalue, Option.getD_some, hspecs]
    rfl
  · simp only [serveRanges, hvalue, Option.getD_some, hspecs, hsource]
    rfl

variable {specs : List RangeSpec} (hspecs : RangeSpec.parse? value = some specs)

include hspecs in
/-- No range that is asked for lies in the file. -/
theorem serveRanges_of_outside (hne : specs ≠ [])
    (hnone : Ranges.spansOf specs content.length = []) :
    serveRanges s request response path content.length mime =
      ⟨.error (.rangeNotSatisfiable content.length), response⟩ := by
  -- one range and several are answered in different ways
  rcases specs with _ | ⟨spec, _ | ⟨spec', specs⟩⟩
  · exact absurd rfl hne
  · have hspan : spec.span? content.length = none :=
      List.filterMap_eq_nil_iff.mp hnone spec (List.mem_singleton_self spec)
    rw [serveRanges_eq_single hsource hvalue hspecs, Ranges.single, hspan]
    rfl
  · rw [serveRanges_eq_several hsource hvalue hspecs (by simp),
      Ranges.several_of_spansOf_eq_nil _ _ _ _ hnone]
    rfl

include hspecs in
/-- Some range that is asked for lies in the file: ranges are sent, unless adding up their lengths
is broken off. -/
theorem serveRanges_of_inside (hsome : Ranges.spansOf specs content.length ≠ []) :
    (∃ response', serveRanges s request response path content.length mime =
        ⟨.ok .partialContent, response'⟩ ∧
      response'.status = 206 ∧ response'.field? "ETag" = response.field? "ETag") ∨
    (serveRanges s request response path content.length mime = ⟨.error .overflow, response⟩ ∧
      s.overflow = .abort ∧
      ¬(Ranges.spansBody (.content content) s.boundary mime content.length
        (Ranges.spansOf specs content.length)).Fits) := by
  rcases specs with _ | ⟨spec, _ | ⟨spec', specs⟩⟩
  · exact absurd rfl hsome
  · obtain ⟨span, hmem⟩ := List.exists_mem_of_ne_nil _ hsome
    obtain ⟨hle, hlast⟩ := Ranges.bounds_of_mem_spansOf hmem
    have hspan : spec.span? content.length = some span := by
      simpa [Ranges.spansOf] using hmem
    have hreply := serveRanges_eq_single hsource hvalue hspecs response content.length mime
    rw [Ranges.single_content hle hlast hspan] at hreply
    exact .inl ⟨_, hreply, rfl, Ranges.entityTag_setSpan _ _ _ _ _⟩
  · have hreply := serveRanges_eq_several hsource hvalue hspecs (by simp) response
      content.length mime
    cases hlength : (Ranges.spansBody (.content content) s.boundary mime content.length
        (Ranges.spansOf (spec :: spec' :: specs) content.length)).length? s.overflow with
    | none =>
      rw [Ranges.several_of_overflow s _ _ _ hsome hlength] at hreply
      exact .inr ⟨hreply, Body.length?_eq_none_iff.mp hlength⟩
    | some length =>
      rw [Ranges.several_of_length? s _ _ _ hsome hlength] at hreply
      exact .inl ⟨_, hreply, rfl, Ranges.entityTag_setSpans _ _ _ _⟩

/-- A range field is answered with ranges or not at all, and then the response stays as it was. -/
theorem serveRanges_of_not_inside
    (hout : ¬∃ specs, RangeSpec.parse? value = some specs ∧
      Ranges.spansOf specs content.length ≠ []) :
    serveRanges s request response path content.length mime =
        ⟨.error (.badRange value), response⟩ ∨
      serveRanges s request response path content.length mime =
        ⟨.error (.rangeNotSatisfiable content.length), response⟩ := by
  cases hspecs : RangeSpec.parse? value with
  | none => exact .inl (serveRanges_of_bad hsource hvalue response mime (.inl hspecs) _)
  | some specs =>
    cases specs with
    | nil => exact .inl (serveRanges_of_bad hsource hvalue response mime (.inr hspecs) _)
    | cons spec specs =>
      refine .inr (serveRanges_of_outside hsource hvalue response mime hspecs
        (List.cons_ne_nil _ _) ?_)
      exact Decidable.of_not_not fun hsome => hout ⟨_, hspecs, hsome⟩

end Outcome

/-! ### Asking for the rest -/

namespace StaticFile

variable {s : Setting} {request : Request} {path : Text} {item : Item} {content : Octets}

/-- What is answered depends on the request through its path, its ranges and what it says of the
copy. -/
theorem get_congr {other : Request} (hitem : s.tree.stat path = .ok item)
    (hpath : other.path = request.path) (hrange : other.field? "range" = request.field? "range")
    (hcopy : other.notModified item.modified.seconds (tag item) =
      request.notModified item.modified.seconds (tag item)) (response : Response) :
    get s other response path = get s request response path := by
  simp only [get, hitem, serveRanges, hpath, hrange, hcopy]

/-- What `get` does depends on the If-Range field only through what it says of the copy. -/
theorem get_of_stale (hitem : s.tree.stat path = .ok item) {value : Text}
    (hvalue : request.field? "if-range" = some value)
    (hstale : StaleIfRange value item.modified.seconds (tag item)) (response : Response) :
    get s request response path = get s (request.withoutField "if-range") response path := by
  have hpath : (request.withoutField "if-range").path = request.path := rfl
  have hrange : (request.withoutField "if-range").field? "range" = request.field? "range" :=
    Request.field?_withoutField_of_ne (by decide) request
  exact (get_congr hitem hpath hrange (Request.notModified_of_stale hvalue hstale).symm
    response).symm

/-- A request with a stale If-Range field is answered like the same request without it. -/
theorem serve_withoutField_of_stale (hitem : s.tree.stat path = .ok item)
    (hmethod : request.method = .get ∨ request.method = .head) {value : Text}
    (hvalue : request.field? "if-range" = some value)
    (hstale : StaleIfRange value item.modified.seconds (tag item)) (response : Response) :
    serve s request response path = serve s (request.withoutField "if-range") response path := by
  have hmethod' : (request.withoutField "if-range").method = .get ∨
      (request.withoutField "if-range").method = .head := hmethod
  calc serve s request response path
    _ = get s request response path := serve_eq_get hmethod
    _ = get s (request.withoutField "if-range") response path :=
      get_of_stale hitem hvalue hstale response
    _ = serve s (request.withoutField "if-range") response path := (serve_eq_get hmethod').symm

/-- A request for ranges that finds the file changed gets to the ranges, behind the tag. -/
theorem serve_eq_serveRanges (hitem : s.tree.stat path = .ok item)
    (hmethod : request.method = .get ∨ request.method = .head) {range : Text}
    (hrange : request.field? "range" = some range)
    (hstill : request.notModified item.modified.seconds (tag item) = false)
    (response : Response) :
    serve s request response path = serveRanges s request (response.setField "ETag" (tag item))
      path item.size (mediaType path) := by
  simp only [serve_eq_get hmethod, get, hitem, hstill, hrange, Option.isSome_some]
  rfl

/-- **A download taken up again with a stale If-Range field.** The field is left aside: the answer
is the one to the same request without it. So ranges are sent when one of those asked for lies in
the file, unless adding up their lengths is broken off, and are a failure otherwise; the whole file
is not sent in their place. In either case the response carries the tag of the file as it is now. -/
theorem serve_of_stale (hitem : s.tree.stat path = .ok item) (hnode : item.node = .file content)
    (hmethod : request.method = .get ∨ request.method = .head) {range value : Text}
    (hrange : request.field? "range" = some range)
    (hvalue : request.field? "if-range" = some value)
    (hstale : StaleIfRange value item.modified.seconds (tag item))
    (hsince : request.field? "if-modified-since" = none)
    (hmatch : request.field? "if-none-match" = none) (response : Response) :
    let reply := serve s request response path
    reply = serve s (request.withoutField "if-range") response path ∧
      reply.response.field? "ETag" = some (tag item) ∧
      (∀ specs, RangeSpec.parse? range = some specs →
        Ranges.spansOf specs content.length ≠ [] →
          (reply.result = .ok .partialContent ∧ reply.response.status = 206) ∨
            (reply.result = .error .overflow ∧ s.overflow = .abort ∧
              ¬(Ranges.spansBody (.content content) s.boundary (mediaType path) content.length
                (Ranges.spansOf specs content.length)).Fits)) ∧
      ((¬ ∃ specs, RangeSpec.parse? range = some specs ∧
          Ranges.spansOf specs content.length ≠ []) →
        reply.result = .error (.badRange range) ∨
          reply.result = .error (.rangeNotSatisfiable content.length)) := by
  intro reply
  have hsize : item.size = content.length := by rw [Item.size, hnode]
  -- without the stale field nothing is said of the client's copy
  have hstill : request.notModified item.modified.seconds (tag item) = false := by
    rw [Request.notModified_of_stale hvalue hstale,
      (Request.unconditional_withoutField hsince hmatch).notModified]
  have hreply : reply = serveRanges s request (response.setField "ETag" (tag item)) path
      content.length (mediaType path) := by
    rw [← hsize]
    exact serve_eq_serveRanges hitem hmethod hrange hstill response
  refine ⟨serve_withoutField_of_stale hitem hmethod hvalue hstale response, ?_⟩
  have hsource := FileTree.source_of_file hitem hnode
  by_cases hinside : ∃ specs, RangeSpec.parse? range = some specs ∧
      Ranges.spansOf specs content.length ≠ []
  · obtain ⟨specs, hspecs, hsome⟩ := hinside
    rcases serveRanges_of_inside hsource hrange (response.setField "ETag" (tag item))
      (mediaType path) hspecs hsome with ⟨response', hanswer, hstatus, htag⟩ | ⟨hanswer, hfits⟩
    · rw [hreply, hanswer]
      refine ⟨?_, fun _ _ _ => .inl ⟨rfl, hstatus⟩, fun hout => absurd ⟨specs, hspecs, hsome⟩ hout⟩
      rw [htag, Response.field?_setField]
    · rw [hreply, hanswer]
      refine ⟨Response.field?_setField _ _ _, fun specs' h _ => .inr ⟨rfl, ?_⟩,
        fun hout => absurd ⟨specs, hspecs, hsome⟩ hout⟩
      rwa [Option.some.inj (h.symm.trans hspecs)]
  · rcases serveRanges_of_not_inside hsource hrange (response.setField "ETag" (tag item))
      (mediaType path) hinside with hfailed | hfailed
    · rw [hreply, hfailed]
      exact ⟨Response.field?_setField _ _ _, fun specs h h' => absurd ⟨specs, h, h'⟩ hinside,
        fun _ => .inl rfl⟩
    · rw [hreply, hfailed]
      exact ⟨Response.field?_setField _ _ _, fun specs h h' => absurd ⟨specs, h, h'⟩ hinside,
        fun _ => .inr rfl⟩

/-- A request for the rest of a file of which the client has the start of another version. -/
def restRequest : Request :=
  ((Request.new .get "/hello.txt").withField "If-Range" "\"0-5-1\"").withField "Range" "bytes=3-"

theorem stat_helloSetting : helloSetting.tree.stat "/hello.txt" =
    .ok { node := .file (Utf8.encode "hello"), serial := 0, modified := ⟨0, 0⟩ } := by
  decide +kernel

theorem stale_restRequest : StaleIfRange "\"0-5-1\"" 0
    (tag { node := .file (Utf8.encode "hello"), serial := 0, modified := ⟨0, 0⟩ }) :=
  staleIfRange_iff.mpr (by decide +kernel)

theorem serve_of_stale_restRequest :
    (serve helloSetting restRequest {} "/hello.txt").result = .ok .partialContent := by
  obtain ⟨-, -, hsome, -⟩ := serve_of_stale stat_helloSetting rfl (.inl rfl)
    (by decide +kernel : restRequest.field? "range" = some "bytes=3-".toList)
    (by decide +kernel : restRequest.field? "if-range" = some "\"0-5-1\"".toList)
    stale_restRequest (by decide +kernel) (by decide +kernel) {}
  rcases hsome [⟨3, -1⟩] (by decide +kernel) (by decide +kernel) with hsent | ⟨-, -, hfits⟩
  · exact hsent.1
  · exact absurd (by decide +kernel) hfits

/-- The whole file need not be sent to a client that holds another version of it. -/
theorem not_forall_whole_of_stale :
    ¬ ∀ (s : Setting) (request : Request) (response : Response) (path : Text) (item : Item)
        (content : Octets) (range value : Text),
      s.tree.stat path = .ok item → item.node = .file content →
        (request.method = .get ∨ request.method = .head) →
          request.field? "range" = some range → request.field? "if-range" = some value →
            StaleIfRange value item.modified.seconds (tag item) →
              request.field? "if-modified-since" = none →
                request.field? "if-none-match" = none →
                  let reply := serve s request response path
                  reply.result = .ok .ok ∧ reply.response.status = 200 ∧
                    reply.response.field? "Content-Length" = some (decimal content.length) ∧
                    reply.response.body.send = ⟨content, .ok content.length⟩ := by
  intro h
  have hwhole := h helloSetting restRequest {} "/hello.txt" _ _ "bytes=3-" "\"0-5-1\""
    stat_helloSetting rfl (.inl rfl) (by decide +kernel) (by decide +kernel) stale_restRequest
    (by decide +kernel) (by decide +kernel)
  have hpartial : (serve helloSetting restRequest {} "/hello.txt").response.status = 206 := by
    decide +kernel
  exact absurd (hpartial.symm.trans hwhole.2.1) (by decide)

end StaticFile

end Webroot
