import Webroot.Proofs.Http.AddedLengths
import Webroot.Proofs.Http.Multipart
import Webroot.Proofs.Http.TameText
import Webroot.Proofs.Mount.SingleRange

/-!
# Several ranges of a file

A plain file is asked for several ranges of its bytes. The spans of the ranges that lie in the file
are sent as the parts of one body, in the order in which they were asked for; ranges that do not
lie in the file are left out.

The bytes of the body are the parts as they are written (`Ranges.send_spansBody`), so a reader that
sees the bytes alone gets the parts back. The length that is announced is a 64-bit sum: it is the
number of bytes as long as that is below 2 ^ 64. When it is not, nothing is announced or what is
left of the sum, as the server was built to check its sums or not.

Main statement: `serveRanges_several`.
-/

namespace Webroot

open Http Text

/-! ### Sending one thing after another -/

theorem Http.Sent.ofBytes_andThen (a b : Octets) :
    (Sent.ofBytes a).andThen (.ofBytes b) = .ofBytes (a ++ b) := by
  simp [Sent.andThen, Sent.ofBytes, Except.map]

namespace Ranges

/-! ### Parts -/

/-- The part for a span of a file as a reader sees it. -/
def readPart (mime : Text) (content : Octets) (span : Span) : Multipart.Part :=
  ⟨[("Content-Type", mime), ("Content-Range", span.contentRange content.length)],
    span.slice content⟩

/-- The spans of the ranges that lie in a file of `size` bytes. -/
def spansOf (specs : List RangeSpec) (size : Nat) : List Span :=
  specs.filterMap fun spec => spec.span? size

theorem bounds_of_mem_spansOf {specs : List RangeSpec} {size : Nat} {span : Span}
    (h : span ∈ spansOf specs size) : span.first ≤ span.last ∧ span.last < size := by
  obtain ⟨spec, -, hspan⟩ := List.mem_filterMap.mp h
  exact RangeSpec.span?_bounds hspan

theorem return_not_mem_contentRange (span : Span) (size : Nat) :
    '\r' ∉ span.contentRange size :=
  (span.tame_contentRange size).not_mem rfl

theorem framed_readPart {mime : Text} (hmime : '\r' ∉ mime) {content : Octets} {span : Span}
    (hle : span.first ≤ span.last) (hlast : span.last < content.length) :
    (readPart mime content span).Framed := by
  refine ⟨?_, span, content.length, rfl, Span.length_slice hle hlast⟩
  have htype : Multipart.PlainField "Content-Type" mime := ⟨by decide, by decide, hmime⟩
  have hrange : Multipart.PlainField "Content-Range" (span.contentRange content.length) :=
    ⟨by decide, by decide, return_not_mem_contentRange _ _⟩
  simpa [readPart] using ⟨htype, hrange⟩

/-- The head of a part and its content are the part as it is written. -/
theorem encode_partHead_append (boundary mime : Text) (content : Octets) (span : Span) :
    Utf8.encode (partHead boundary mime span content.length) ++ span.slice content ++ lineEnd =
      (readPart mime content span).written boundary := by
  have hhead : partHead boundary mime span content.length =
      "--" ++ boundary ++ "\r\n" ++
        Multipart.fieldLines (readPart mime content span).fields ++ "\r\n" := by
    unfold partHead
    simp [readPart, Multipart.fieldLines, Response.fieldLine]
  have hend : Utf8.encode ("\r\n" : Text) = [13, 10] := rfl
  rw [hhead, Multipart.Part.written]
  simp only [Utf8.encode_append, hend, List.append_assoc]
  rfl

/-- A part of a file is sent as it is written. -/
theorem send_part {content : Octets} {span : Span} (hle : span.first ≤ span.last)
    (hlast : span.last < content.length) (boundary mime : Text) :
    (part boundary mime content.length span).send (.content content) =
      .ofBytes ((readPart mime content span).written boundary) := by
  have hseek : (Source.content content).seekError? span.first = none :=
    Source.seekError?_content (by omega)
  have hlength := Span.length_slice hle hlast
  rw [Span.slice] at hlength
  have hcontent : (part boundary mime content.length span).sendContent (.content content) =
      .ofBytes (span.slice content) := by
    simp only [BytePart.sendContent, part, hseek, Source.read, hlength, Nat.lt_irrefl, if_false]
    rfl
  rw [BytePart.send, hcontent, Sent.ofBytes_andThen, Sent.ofBytes_andThen, part,
    encode_partHead_append]

/-! ### The whole body -/

/-- **A body of several spans** is sent as its parts, in order, and the closing line. -/
theorem send_spansBody {content : Octets} {spans : List Span}
    (h : ∀ span ∈ spans, span.first ≤ span.last ∧ span.last < content.length)
    (boundary mime : Text) :
    (spansBody (.content content) boundary mime content.length spans).send =
      .ofBytes ((spans.map (readPart mime content)).flatMap (Multipart.Part.written boundary) ++
        Utf8.encode (closing boundary)) := by
  rw [spansBody, Body.send]
  -- on the spans: what the first part sends stands in front of what the others send
  induction spans with
  | nil => rfl
  | cons span spans ih =>
    obtain ⟨⟨hle, hlast⟩, hspans⟩ := List.forall_mem_cons.mp h
    rw [List.map_cons, List.foldr_cons, ih hspans, send_part hle hlast, Sent.ofBytes_andThen,
      List.map_cons, List.flatMap_cons, List.append_assoc]

/-- A part is counted with its head, its content and its line end. -/
theorem size_part {content : Octets} {span : Span} (hle : span.first ≤ span.last)
    (hlast : span.last < content.length) (boundary mime : Text) :
    (part boundary mime content.length span).size =
      ((readPart mime content span).written boundary).length := by
  rw [← encode_partHead_append, List.length_append, List.length_append,
    Span.length_slice hle hlast]
  rfl

/-- The length of a body of several spans is the number of its bytes. -/
theorem length_spansBody {content : Octets} {spans : List Span}
    (h : ∀ span ∈ spans, span.first ≤ span.last ∧ span.last < content.length)
    (boundary mime : Text) :
    (spansBody (.content content) boundary mime content.length spans).length =
      ((spans.map (readPart mime content)).flatMap (Multipart.Part.written boundary) ++
        Utf8.encode (closing boundary)).length := by
  rw [spansBody, Body.length]
  induction spans with
  | nil => rfl
  | cons span spans ih =>
    obtain ⟨⟨hle, hlast⟩, hspans⟩ := List.forall_mem_cons.mp h
    rw [List.map_cons, List.foldr_cons, size_part hle hlast, ih hspans, ← List.length_append,
      List.map_cons, List.flatMap_cons, List.append_assoc]

theorem return_not_mem_boundary (s : Setting) : '\r' ∉ s.boundary := s.tame_boundary.not_mem rfl

/-- The bytes of a body of several spans, as they are sent, counted and read. -/
theorem exists_send_spansBody {mime : Text} (hmime : '\r' ∉ mime) {content : Octets}
    {spans : List Span}
    (h : ∀ span ∈ spans, span.first ≤ span.last ∧ span.last < content.length)
    {boundary : Text} (hboundary : '\r' ∉ boundary) :
    ∃ bytes, (spansBody (.content content) boundary mime content.length spans).send =
        ⟨bytes, .ok bytes.length⟩ ∧
      (spansBody (.content content) boundary mime content.length spans).length =
        bytes.length ∧
      Multipart.parts? boundary bytes = some (spans.map (readPart mime content)) := by
  refine ⟨_, send_spansBody h boundary mime, length_spansBody h boundary mime,
    Multipart.parts?_written hboundary fun p hp => ?_⟩
  obtain ⟨span, hspan, rfl⟩ := List.mem_map.mp hp
  exact framed_readPart hmime (h span hspan).1 (h span hspan).2

/-! ### The answer -/

section Answer

variable {specs : List RangeSpec} {size : Nat} (s : Setting) (source : Source) (mime : Text)
  (response : Response)

theorem several_of_spansOf_eq_nil (h : spansOf specs size = []) :
    several s source mime size specs response = failed (.rangeNotSatisfiable size) response := by
  rw [several, ← spansOf, h]

/-- What becomes of several ranges of which some lie in the file. -/
theorem several_of_spansOf_ne_nil (h : spansOf specs size ≠ []) :
    several s source mime size specs response =
      let body := spansBody source s.boundary mime size (spansOf specs size)
      match body.length? s.overflow with
      | none => failed .overflow response
      | some length => ⟨.ok .partialContent, setSpans response s.boundary length body⟩ := by
  rw [several, ← spansOf]
  split
  · rename_i hnil
    exact absurd hnil h
  · rfl

/-- A body whose length can be added up is sent. -/
theorem several_of_length? (h : spansOf specs size ≠ []) {length : Nat}
    (hlength : (spansBody source s.boundary mime size (spansOf specs size)).length? s.overflow =
      some length) :
    several s source mime size specs response =
      ⟨.ok .partialContent, setSpans response s.boundary length
        (spansBody source s.boundary mime size (spansOf specs size))⟩ := by
  simp only [several_of_spansOf_ne_nil s source mime response h, hlength]

theorem several_of_overflow (h : spansOf specs size ≠ [])
    (hlength : (spansBody source s.boundary mime size (spansOf specs size)).length? s.overflow =
      none) :
    several s source mime size specs response = failed .overflow response := by
  simp only [several_of_spansOf_ne_nil s source mime response h, hlength]

end Answer

section SetSpans

variable (response : Response) (boundary : Text) (length : Nat) (body : Body)

theorem contentType_setSpans :
    (setSpans response boundary length body).field? "Content-Type" =
      some (multipartType boundary) := by
  rw [setSpans, Response.field?_setBody, Response.field?_removeField_of_ne (by decide),
    Response.field?_setField_of_ne (by decide), Response.field?_setField]

theorem contentLength_setSpans :
    (setSpans response boundary length body).field? "Content-Length" = some (decimal length) := by
  rw [setSpans, Response.field?_setBody, Response.field?_removeField_of_ne (by decide),
    Response.field?_setField]

theorem contentRange_setSpans :
    (setSpans response boundary length body).field? "Content-Range" = none := by
  rw [setSpans, Response.field?_setBody, Response.field?_removeField]

end SetSpans

end Ranges

/-! ### From the range field to the bytes -/

variable {s : Setting} {request : Request} {path mime : Text} {item : Item} {content : Octets}

/-- A range field with several ranges is answered with these ranges. -/
theorem serveRanges_eq_several {source : Source} (hsource : s.tree.source path = .ok source)
    {value : Text} (hvalue : request.field? "range" = some value) {specs : List RangeSpec}
    (hspecs : RangeSpec.parse? value = some specs) (hseveral : 2 ≤ specs.length)
    (response : Response) (size : Nat) (mime : Text) :
    serveRanges s request response path size mime =
      Ranges.several s source mime size specs response := by
  simp only [serveRanges, hvalue, Option.getD_some, hspecs, hsource]
  rcases specs with _ | ⟨spec, _ | ⟨spec', specs⟩⟩
  · cases hseveral
  · simp at hseveral
  · rfl

/-- **Several ranges.** When none of them lies in the file the answer is a failure and the response
stays as it was. Otherwise, if the body fits or sums are not checked, the bytes that are sent, read
with the boundary that the head names, are one part for each range that lies in the file: in the
order in which they were asked for, each with its type, its place in the file and the bytes of the
file at that place. The length in the head is the number of bytes that are sent, or what 64 bits
hold of it when the body does not fit. If neither holds, the request is broken off. -/
theorem serveRanges_several (hitem : s.tree.stat path = .ok item)
    (hnode : item.node = .file content) (hmime : '\r' ∉ mime) {value : Text}
    (hvalue : request.field? "range" = some value) {specs : List RangeSpec}
    (hspecs : RangeSpec.parse? value = some specs) (hseveral : 2 ≤ specs.length)
    (response : Response) :
    let reply := serveRanges s request response path content.length mime
    let spans := Ranges.spansOf specs content.length
    let body := Ranges.spansBody (.content content) s.boundary mime content.length spans
    (spans = [] → reply = ⟨.error (.rangeNotSatisfiable content.length), response⟩) ∧
      (spans ≠ [] → body.Fits ∨ s.overflow = .wrap →
        reply.result = .ok .partialContent ∧
        reply.response.status = 206 ∧
        reply.response.field? "Content-Range" = none ∧
        ∃ (boundary : Text) (bytes : Octets),
          reply.response.field? "Content-Type" =
            some ("multipart/byteranges; boundary=" ++ boundary) ∧
          reply.response.body.send = ⟨bytes, .ok bytes.length⟩ ∧
          Multipart.parts? boundary bytes =
            some (spans.map fun span =>
              ⟨[("Content-Type", mime), ("Content-Range",
                "bytes " ++ decimal span.first ++ "-" ++ decimal span.last ++ "/" ++
                  decimal content.length)],
                (content.drop span.first).take (span.last - span.first + 1)⟩) ∧
          bytes.length = body.length ∧
          reply.response.field? "Content-Length" =
            some (decimal (bytes.length % 0x10000000000000000)) ∧
          (body.Fits → reply.response.field? "Content-Length" = some (decimal bytes.length))) ∧
      (spans ≠ [] → ¬body.Fits → s.overflow = .abort →
        reply = ⟨.error .overflow, response⟩) := by
  intro reply spans body
  have hreply : reply = Ranges.several s (.content content) mime content.length specs response :=
    serveRanges_eq_several (FileTree.source_of_file hitem hnode) hvalue hspecs hseveral response _
      mime
  refine ⟨?_, ?_, ?_⟩
  · intro hnone
    rw [hreply, Ranges.several_of_spansOf_eq_nil _ _ _ _ hnone]
    rfl
  · intro hsome hsum
    obtain ⟨bytes, hsend, hlength, hparts⟩ :=
      Ranges.exists_send_spansBody hmime
        (fun span hspan => Ranges.bounds_of_mem_spansOf hspan)
        (Ranges.return_not_mem_boundary s)
    have hsum : body.length? s.overflow = some (body.length % 0x10000000000000000) :=
      Body.length?_multipart_of_fits_or_wrap hsum
    have hcount : (Ranges.setSpans response s.boundary (body.length % 0x10000000000000000)
        body).field? "Content-Length" = some (decimal (bytes.length % 0x10000000000000000)) := by
      rw [Ranges.contentLength_setSpans, hlength]
    rw [hreply, Ranges.several_of_length? s _ _ _ hsome hsum]
    refine ⟨rfl, rfl, Ranges.contentRange_setSpans _ _ _ _, s.boundary, bytes,
      Ranges.contentType_setSpans _ _ _ _, hsend, hparts, hlength.symm, hcount, fun hfits => ?_⟩
    have hword : bytes.length < 0x10000000000000000 := hlength ▸ hfits
    rwa [← Nat.mod_eq_of_lt hword]
  · intro hsome hfits habort
    have hsum : body.length? s.overflow = none := Body.length?_eq_none_iff.mpr ⟨habort, hfits⟩
    rw [hreply, Ranges.several_of_overflow s _ _ _ hsome hsum]
    rfl

/-- A request for the last bytes, for bytes after the end and for the first bytes of a file. -/
def outOfOrderRequest : Request :=
  (Request.new .get "/hello.txt").withField "Range" "bytes=-2, 9-, 0-1"

theorem serveRanges_several_outOfOrderRequest :
    let reply := serveRanges StaticFile.helloSetting outOfOrderRequest {} "/hello.txt" 5
      "text/plain"
    ∃ (boundary : Text) (bytes : Octets),
      reply.response.field? "Content-Type" =
        some ("multipart/byteranges; boundary=" ++ boundary) ∧
      reply.response.body.send = ⟨bytes, .ok bytes.length⟩ ∧
      Multipart.parts? boundary bytes = some [
        ⟨[("Content-Type", "text/plain"), ("Content-Range", "bytes 3-4/5")], Utf8.encode "lo"⟩,
        ⟨[("Content-Type", "text/plain"), ("Content-Range", "bytes 0-1/5")],
          Utf8.encode "he"⟩] := by
  intro reply
  have hitem : StaticFile.helloSetting.tree.stat "/hello.txt" =
      .ok { node := .file (Utf8.encode "hello"), serial := 0, modified := ⟨0, 0⟩ } := by
    decide +kernel
  have hvalue : outOfOrderRequest.field? "range" = some "bytes=-2, 9-, 0-1" := by
    decide +kernel
  have hspecs : RangeSpec.parse? "bytes=-2, 9-, 0-1" = some [⟨-2, -1⟩, ⟨9, -1⟩, ⟨0, 1⟩] := by
    decide +kernel
  have hmime : '\r' ∉ ("text/plain" : Text) := by decide
  obtain ⟨-, hsome, -⟩ := serveRanges_several hitem rfl hmime hvalue hspecs (by decide) {}
  obtain ⟨-, -, -, boundary, bytes, htype, hsend, hparts, -⟩ :=
    hsome (by decide +kernel) (.inl (by decide +kernel))
  exact ⟨boundary, bytes, htype, hsend, hparts.trans (by decide +kernel)⟩

end Webroot
