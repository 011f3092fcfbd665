import Webroot.Host
import Webroot.Proofs.Http.Message
import Webroot.Proofs.Mount.Answers
import Webroot.Proofs.Mount.Revalidation
import Webroot.Proofs.Mount.SeveralRanges
import Webroot.Proofs.Url.RoundTrip

/-!
# Every answer is measured

A client finds the end of an answer by the length that its head names. That length comes from two
places. A whole file, a range and several ranges store one of their own, and to a page or an answer
without a body it is added when the answer is sent. So it has to be kept track of which of the two
happens on every way to an answer: a length must neither be missing, nor count other bytes than
those that are sent, nor stand beside a second one.

What is kept track of is whether the reply of each step is **settled** (`Reply.Settled`). Ranges,
plain files and directories leave settled replies, and the host turns any of them into a response
that is measured: a failure replaces what was stored, and a mount that declines has stored nothing.

Main statement: `Host.delimited_respondTo`.
-/

namespace Webroot

open Http Text

/-! ### What an attempt to answer leaves -/

/-- A reply is **settled** when it leaves orderly fields after a failure, neither a length nor a
body when it declines, and otherwise a measured response, if its body fits. -/
def Reply.Settled (reply : Reply) : Prop :=
  match reply.result with
  | .error _ => reply.response.Orderly
  | .ok .declined =>
    reply.response.Orderly ∧ reply.response.field? "Content-Length" = none ∧
      reply.response.body = .empty
  | .ok _ => reply.response.body.Fits → reply.response.Measured

/-! ### Values that hold no carriage return -/

theorem Http.return_not_mem_mediaType (name : Text) : '\r' ∉ mediaType name :=
  (tame_mediaType name).not_mem rfl

/-! ### Ranges -/

section Reply

variable {s : Setting} {request : Request} {response : Response} {path mime : Text} {item : Item}
  {content : Octets}

theorem Ranges.settled_single (hresponse : response.Orderly) (hmime : '\r' ∉ mime)
    (spec : RangeSpec) :
    (single (.content content) path mime content.length spec response).Settled := by
  cases hspan : spec.span? content.length with
  | none =>
    simp only [single, hspan]
    exact hresponse
  | some span =>
    obtain ⟨hle, hlast⟩ := RangeSpec.span?_bounds hspan
    have hsend : (bodyOf content span).send = .ofBytes (span.slice content) := by
      rw [send_bodyOf hle hlast, Sent.ofBytes, Span.length_slice hle hlast]
    rw [single_content hle hlast hspan]
    intro _
    refine .stored ?_ rfl hsend ?_
    · have hrange : Multipart.PlainField "Content-Range" (span.contentRange content.length) :=
        ⟨by decide, by decide, return_not_mem_contentRange span _⟩
      have htype := (hresponse.setStatus 206).setField (plainField_contentType hmime)
      exact ((htype.setField hrange).setField (plainField_contentLength _)).setBody _
    · rw [Span.length_slice hle hlast]
      exact contentLength_setSpan response mime span _ _

theorem Ranges.settled_several (hresponse : response.Orderly) (specs : List RangeSpec) :
    (several s (.content content) mime content.length specs response).Settled := by
  by_cases hnone : spansOf specs content.length = []
  · rw [several_of_spansOf_eq_nil _ _ _ _ hnone]
    exact hresponse
  · have hbounds : ∀ span ∈ spansOf specs content.length,
        span.first ≤ span.last ∧ span.last < content.length :=
      fun span hspan => bounds_of_mem_spansOf hspan
    cases hlength : (spansBody (.content content) s.boundary mime content.length
        (spansOf specs content.length)).length? s.overflow with
    | none =>
      rw [several_of_overflow s _ _ _ hnone hlength]
      exact hresponse
    | some length =>
      rw [several_of_length? s _ _ _ hnone hlength]
      intro hfits
      refine .stored ?_ rfl (send_spansBody hbounds s.boundary mime) ?_
      · have hboundary : '\r' ∉ multipartType s.boundary := by
          unfold multipartType
          rw [List.mem_append, not_or]
          exact ⟨by decide, return_not_mem_boundary s⟩
        have htype := (hresponse.setStatus 206).setField (plainField_contentType hboundary)
        exact ((htype.setField (plainField_contentLength _)).removeField _).setBody _
      · -- the body fits, so the length that was added up is the number of bytes
        have hexact := hlength.symm.trans (Body.length?_eq_some_length_iff.mpr hfits)
        rw [contentLength_setSpans, Option.some.inj hexact, length_spansBody hbounds]

theorem settled_serveRanges (hitem : s.tree.stat path = .ok item) (hfile : item.isFile = true)
    (hresponse : response.Orderly) (hmime : '\r' ∉ mime) :
    (serveRanges s request response path item.size mime).Settled := by
  rcases Item.isFile_iff.mp hfile with ⟨content, hnode⟩ | hnode
  · rw [Item.size_of_file hnode]
    simp only [serveRanges, FileTree.source_of_file hitem hnode]
    split
    · exact hresponse
    · -- by the number of ranges: none, one, several
      split
      · exact hresponse
      · exact Ranges.settled_single hresponse hmime _
      · exact Ranges.settled_several hresponse _
  · have hdenied : s.tree.source path = .error .denied := by
      rw [FileTree.source, hitem, Except.bind, Source.ofItem, hnode]
    simp only [serveRanges, hdenied]
    split
    · exact hresponse
    · exact hresponse

/-! ### Plain files -/

namespace StaticFile

theorem measured_setFile (hresponse : response.Orderly) (hnode : item.node = .file content)
    (hmime : '\r' ∉ mime) :
    (setFile response item (.content content) mime).Measured := by
  refine .stored ?_ rfl (send_setFile hnode _ _) ?_
  · have hdate : Multipart.PlainField "Last-Modified" (HttpDate.format item.modified.seconds) :=
      ⟨by decide, by decide, return_not_mem_format _⟩
    have htype := (hresponse.setStatus 200).setField (plainField_contentType hmime)
    exact ((htype.setField (plainField_contentLength _)).setField hdate).setBody _
  · rw [setFile, Response.field?_setBody, Response.field?_setField_of_ne (by decide),
      ← Item.size_of_file hnode]
    exact Response.field?_setField _ _ _

theorem settled_get (hitem : s.tree.stat path = .ok item) (hfile : item.isFile = true)
    (hresponse : response.Orderly) (hlength : response.field? "Content-Length" = none) :
    (get s request response path).Settled := by
  have htagged : (response.setField "ETag" (tag item)).Orderly :=
    hresponse.setField (plainField_tag item)
  have hmime := return_not_mem_mediaType path
  obtain ⟨e, -, hreply⟩ | ⟨item', hitem', hreply⟩ := get_cases s request response path
  · rw [hreply]
    exact hresponse
  obtain rfl : item = item' := Except.ok.inj (hitem.symm.trans hitem')
  obtain hreply | hreply | ⟨e, -, hreply⟩ | ⟨source, hsource, hreply⟩ := hreply
  · rw [hreply]
    intro _
    refine .bodiless ((htagged.setStatus 304).setBody .empty) rfl ?_ rfl
    rw [Response.field?_setBody, ← hlength]
    exact Response.field?_setField_of_ne (by decide) response _
  · rw [hreply]
    exact settled_serveRanges hitem hfile htagged hmime
  · rw [hreply]
    exact htagged
  · rw [hreply]
    intro _
    rcases Item.isFile_iff.mp hfile with ⟨content, hnode⟩ | hnode
    · obtain rfl := Except.ok.inj (hsource.symm.trans (Source.ofItem_of_file hnode))
      exact measured_setFile htagged hnode hmime
    · rw [Source.ofItem, hnode] at hsource
      cases hsource

theorem settled_serve (hfile : s.tree.isFile path = true) (hresponse : response.Orderly)
    (hlength : response.field? "Content-Length" = none) :
    (serve s request response path).Settled := by
  obtain ⟨item, hitem, hfile⟩ := FileTree.isFile_iff.mp hfile
  unfold serve
  cases request.method with
  | get => exact settled_get hitem hfile hresponse hlength
  | head => exact settled_get hitem hfile hresponse hlength
  | post => exact hresponse
  | options =>
    intro _
    have hallow : Multipart.PlainField "Allow" Response.fileMethods :=
      ⟨by decide, by decide, by decide⟩
    have hnone : ((response.setStatus 200).setField "Allow" Response.fileMethods).field?
        "Content-Length" = none := by
      rw [← hlength]
      exact Response.field?_setField_of_ne (by decide) _ _
    exact .added (((hresponse.setStatus 200).setField hallow).setBody _) rfl
      (show Body.empty.send = .ofBytes [] from rfl) hnone rfl

end StaticFile

end Reply

/-! ### Pages -/

namespace Http.Response

variable {r : Response}

/-- A page is measured: its length is added when it is sent. -/
theorem measured_setPage (h : r.Orderly) (hstatus : isBodiless r.status = false)
    (hlength : r.field? "Content-Length" = none) (page : Text) : (r.setPage page).Measured := by
  have hnone : (r.setPage page).field? "Content-Length" = none := by
    rw [setPage, field?_setBody, ← hlength]
    exact field?_setField_of_ne (by decide) r _
  exact .added (h.setPage page) hstatus rfl hnone rfl

/-- The report of a failure is measured, whatever length was stored before. -/
theorem measured_setFailure (h : r.Orderly) (f : Failure) : (r.setFailure f).Measured := by
  have hremoved : ((r.setStatus f.status).removeContentFields).Orderly :=
    ((((h.setStatus f.status).removeField _).removeField _).removeField _).removeField _
  have hlength : ((r.setStatus f.status).removeContentFields).field? "Content-Length" = none := by
    rw [removeContentFields, field?_removeField_of_ne (by decide), field?_removeField]
  have hstatus : isBodiless f.status = false := by
    cases f with
    | notFound | forbidden | badRequest | methodNotAllowed | rangeNotSatisfiable | internal
    | overflow => rfl
  rw [setFailure]
  cases f with
  | rangeNotSatisfiable size =>
    have hrange : Multipart.PlainField "Content-Range" ("bytes */" ++ decimal size) := by
      refine ⟨by decide, by decide, ?_⟩
      rw [List.mem_append, not_or]
      exact ⟨by decide, not_mem_decimal rfl size⟩
    refine measured_setPage (hremoved.setField hrange) hstatus ?_ _
    rw [← hlength]
    exact field?_setField_of_ne (by decide) _ _
  | methodNotAllowed note =>
    refine measured_setPage (hremoved.setField ⟨by decide, by decide, by decide⟩) hstatus ?_ _
    rw [← hlength]
    exact field?_setField_of_ne (by decide) _ _
  | notFound | forbidden | badRequest | internal | overflow =>
    exact measured_setPage hremoved hstatus hlength _

end Http.Response

/-! ### Directories and mounts -/

namespace Mount

variable {m : Mount} {s : Setting} {x : Exchange}

/-- The address of a directory holds no carriage return unless the query string does. -/
theorem return_not_mem_directoryLocation {r : Request}
    (h : ∀ q, r.queryString = some q → '\r' ∉ q) : '\r' ∉ directoryLocation r := by
  have hpath : '\r' ∉ Url.escapePath r.path := (Url.tame_escapePath r.path).not_mem rfl
  rw [directoryLocation]
  cases hquery : r.queryString with
  | none => simp [hpath]
  | some q => simp [hpath, h q hquery]

/-- A directory is redirected to, not to be listed, or listed, and the reply is settled. -/
theorem settled_serveDirectory (hresponse : x.response.Orderly)
    (hlength : x.response.field? "Content-Length" = none)
    (hlocation : '\r' ∉ directoryLocation x.request) :
    (⟨(m.serveDirectory s x).result,
      (m.serveDirectory s x).exchange.response⟩ : Reply).Settled := by
  rw [serveDirectory]
  split_ifs with hend hindex
  · intro _
    have hfield : Multipart.PlainField "Location" (directoryLocation x.request) :=
      ⟨by decide, by decide, hlocation⟩
    refine Response.measured_setPage ((hresponse.setStatus 301).setField hfield) rfl ?_ _
    rw [← hlength]
    exact Response.field?_setField_of_ne (by decide) _ _
  · exact hresponse
  · rw [serveListing]
    split
    · exact hresponse
    · intro _
      exact Response.measured_setPage (hresponse.setStatus 200) rfl hlength _

/-- The reply of a bare mount is settled. -/
theorem settled_serve (hm : m.Bare) (hresponse : x.response.Orderly)
    (hlength : x.response.field? "Content-Length" = none) (hbody : x.response.body = .empty)
    (hlocation : '\r' ∉ directoryLocation x.request) :
    (⟨(m.serve s x).result, (m.serve s x).exchange.response⟩ : Reply).Settled := by
  -- the walk to the file or the directory changes neither the fields nor the body
  have horderly : ∀ path, (x.response.setFilename path).Orderly :=
    fun _ => ⟨hresponse.plain, hresponse.distinct⟩
  rcases Resolve.finds_or_endsInDirectory_or_misses s.tree m.options (m.enterHome x).1
    (m.enterHome x).2.request with
    ⟨pre, base, rest, name, h⟩ | ⟨pre, left, h⟩ | ⟨pre, base, rest, h⟩
  · have hfile : s.tree.isFile ((m.enterHome x).1 ++ (pre.flatten ++ name)) = true := by
      rw [← List.append_assoc]
      exact (Resolve.pick_eq_some h.picked).1
    rw [serve_of_finds hm h, servePlain, response_moved]
    exact StaticFile.settled_serve hfile (horderly _) hlength
  · rw [← directoryLocation_moved m x (pre.flatten ++ (left.take 1).flatten) (left.drop 1)]
      at hlocation
    rw [serve_of_endsInDirectory hm h]
    have hended := response_moved m x (pre.flatten ++ (left.take 1).flatten) (left.drop 1)
    have hdirectory := settled_serveDirectory (m := m) (s := s) (by rw [hended]; exact horderly _)
      (by rw [hended]; exact hlength) hlocation
    cases x.request.method with
    | get => exact hdirectory
    | head => exact hdirectory
    | post =>
      show Response.Orderly _
      rw [hended]
      exact horderly _
    | options =>
      show Response.Orderly _ ∧ _ ∧ _
      rw [hended]
      exact ⟨horderly _, hlength, hbody⟩
  · obtain ⟨hresult, hleft⟩ := serve_of_misses hm h
    rw [hresult, hleft]
    exact horderly _

end Mount

/-! ### The host -/

namespace Host

/-- The response to a request is measured, if its body fits. -/
theorem measured_respond {m : Mount} {s : Setting} {r : Request} (hm : m.Bare)
    (hquery : ∀ q, r.queryString = some q → '\r' ∉ q) (hfits : (respond m s r).body.Fits) :
    (respond m s r).Measured := by
  have hsettled : (⟨(m.serve s { request := r }).result,
      (m.serve s { request := r }).exchange.response⟩ : Reply).Settled :=
    Mount.settled_serve hm (Response.orderly_of_fields_eq_nil rfl) rfl rfl
      (Mount.return_not_mem_directoryLocation hquery)
  rw [respond] at hfits ⊢
  cases hresult : (m.serve s { request := r }).result with
  | error f =>
    rw [hresult] at hsettled
    have hreport := Response.measured_setFailure hsettled f
    cases f with
    | overflow => exact Response.measured_setFailure (Response.orderly_of_fields_eq_nil rfl) _
    | notFound | forbidden | badRequest | methodNotAllowed | rangeNotSatisfiable | internal =>
      exact hreport
  | ok outcome =>
    rw [hresult] at hsettled hfits
    cases outcome with
    | declined =>
      obtain ⟨horderly, hlength, hbody⟩ := hsettled
      have hallow : Multipart.PlainField "Allow" hostMethods :=
        ⟨by decide, by decide, by decide⟩
      have hname : ¬SameLetters "Allow" "Content-Length" := by decide
      exact .bodiless ((horderly.setStatus 204).setField hallow) rfl
        ((Response.field?_setField_of_ne hname _ _).trans hlength) hbody
    | ok | partialContent | notModified | redirect => exact hsettled hfits

/-- **Delimited answers.** Whatever octets a client sends, those that the host sends back are read
as a message whose end its head tells: with the status 204 or 304 it names no length and has no
body, and otherwise it names the number of bytes of its body once. The octets are no request to see
a head alone, and the lengths of several parts have a sum of 64 bits. -/
theorem delimited_respondTo {m : Mount} {s : Setting} {id : Nat} {octets : Octets} (hm : m.Bare)
    (hhead : ∀ r, Request.read octets id = .ok r → r.method ≠ .head)
    (hfits : (respondTo m s id octets).1.body.Fits) (now : Instant) :
    let sent := (respondTo m s id octets).1.send now (respondTo m s id octets).2
    ∃ message, Message.read? sent.bytes = some message ∧ sent.result = .ok message.body.length ∧
      message.Delimited := by
  intro sent
  have hanswer : (respondTo m s id octets).1.Measured ∧ (respondTo m s id octets).2 = false := by
    rw [respondTo] at hfits ⊢
    cases hread : Request.read octets id with
    | error f =>
      exact ⟨Response.measured_setFailure (Response.orderly_of_fields_eq_nil rfl) f, rfl⟩
    | ok r =>
      rw [hread] at hfits
      have hmethod : (r.method == .head) = false := by simpa using hhead r hread
      have hquery : ∀ q, r.queryString = some q → '\r' ∉ q := by
        intro q hq hmem
        have hblank := Request.isBlank_of_mem_queryString hread hq '\r' hmem
        exact absurd hblank (by decide)
      exact ⟨measured_respond hm hquery hfits, hmethod⟩
  obtain ⟨hmeasured, hbody⟩ := hanswer
  have hdelimited := hmeasured.delimited now
  rwa [← hbody] at hdelimited

/-- The octets of a request for the first byte and for the last two bytes of a file. -/
def twoRanges : Octets :=
  Utf8.encode "GET /hello.txt HTTP/1.1\r\nRange: bytes=0-0, -2\r\n\r\n"

theorem delimited_respondTo_twoRanges :
    let answer := respondTo { root := "/", options := {} } StaticFile.helloSetting 7 twoRanges
    let sent := answer.1.send ⟨0, 0⟩ answer.2
    answer.1.status = 206 ∧ ∃ message, Message.read? sent.bytes = some message ∧
      sent.result = .ok message.body.length ∧ message.Delimited := by
  refine ⟨by decide +kernel, delimited_respondTo ?_ ?_ ?_ _⟩
  · exact ⟨⟨rfl, rfl, rfl⟩, rfl, rfl⟩
  · intro r hread
    have hmethod : (Request.read twoRanges 7).toOption.map (·.method) = some .get := by
      decide +kernel
    rw [hread] at hmethod
    have hget : r.method = .get := Option.some.inj hmethod
    rw [hget]
    exact Method.noConfusion
  · decide +kernel

end Host

end Webroot
