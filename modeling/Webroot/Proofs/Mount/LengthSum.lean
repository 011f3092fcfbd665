import Webroot.Proofs.Mount.SentLength
import Webroot.Proofs.Mount.SeveralRanges

/-!
# The sum of the lengths of several ranges

The length of an answer with several ranges is a sum of 64-bit numbers: for each range the head, the
bytes of the range and a line end, and then the closing line. A single range lies in a file of less
than 2 ^ 63 bytes, so its own length is never too large (`Ranges.length_lt_of_span?`). But nothing
limits how often the same bytes are asked for. Ranges that overlap add up to more than the file, and
two of them are enough to go beyond 64 bits for the largest files.

When the sum is too large, what comes of the request depends on how the server was built. If sums
are checked, the request is broken off. If they are not, the length that is announced is what is
left of the sum, smaller than the number of bytes that are to be sent.

Main statements: `serveRanges_length_iff`, and `not_forall_length_eq` for two ranges with a sum that
wraps around.
-/

namespace Webroot

open Http Text

/-! ### Parts -/

namespace Http.Body

variable {source : Source} {parts : List BytePart} {closing : Octets} {p : BytePart}

/-- No part is longer than the body. -/
theorem size_le_length (hp : p ∈ parts) : p.size ≤ (multipart source parts closing).length := by
  rw [length]
  induction parts with
  | nil => cases hp
  | cons q parts ih =>
    rw [List.foldr_cons]
    rcases List.mem_cons.mp hp with rfl | hp
    · exact Nat.le_add_right _ _
    · exact Nat.le_add_left_of_le (ih hp)

/-- The parts of a body that fits have sizes that can be added up. -/
theorem Fits.size?_eq (h : (multipart source parts closing).Fits) (hp : p ∈ parts)
    (o : Overflow) : p.size? o = some p.size := by
  rw [BytePart.size?_eq]
  exact Overflow.keep?_of_lt (Nat.lt_of_le_of_lt (size_le_length hp) h) o

end Http.Body

namespace Ranges

/-- The length of a span of a file is a positive 64-bit integer with a sign. -/
theorem length_lt_of_span? {spec : RangeSpec} {size : Nat} {span : Span}
    (h : spec.span? size = some span) : span.length < 0x8000000000000000 := by
  have hsize : size < 0x8000000000000000 := by
    rw [RangeSpec.span?] at h
    split_ifs at h with hsize
    exact hsize
  obtain ⟨hle, hlast⟩ := RangeSpec.span?_bounds h
  rw [Span.length]
  omega

/-- The size of a part is added up right, as long as its head has no more bytes than a file can
have. -/
theorem size?_part {spec : RangeSpec} {size : Nat} {span : Span}
    (h : spec.span? size = some span) {boundary mime : Text}
    (hhead : (part boundary mime size span).head.length < 0x7FFFFFFFFFFFFFFF) (o : Overflow) :
    (part boundary mime size span).size? o = some (part boundary mime size span).size := by
  have hlength : (part boundary mime size span).length < 0x8000000000000000 :=
    length_lt_of_span? h
  have hend : lineEnd.length = 2 := rfl
  rw [BytePart.size?_eq]
  refine Overflow.keep?_of_lt ?_ o
  rw [BytePart.size]
  omega

end Ranges

/-! ### Answers -/

variable {s : Setting} {request : Request} {path mime : Text} {size : Nat} {source : Source}

/-- **Sums of lengths.** Let several ranges be asked for of which some lie in the file. They are
answered with a body, the size of each part and the length of the body are added up to what they
are, and the head names the length, exactly when the sum of all lengths is below 2 ^ 64. Otherwise
the request is broken off where sums are checked; where they are not, the body is stored all the
same, and the length in the head is what 64 bits hold of the sum, which is less. The size of a part
alone is always right, as long as its head has no more bytes than a file can have; and the sum is
the number of bytes that are sent, when they are sent without an error. -/
theorem serveRanges_length_iff (hsource : s.tree.source path = .ok source) {value : Text}
    (hvalue : request.field? "range" = some value) {specs : List RangeSpec}
    (hspecs : RangeSpec.parse? value = some specs) (hseveral : 2 ≤ specs.length)
    (hsome : Ranges.spansOf specs size ≠ []) (response : Response) :
    let reply := serveRanges s request response path size mime
    let parts := (Ranges.spansOf specs size).map (Ranges.part s.boundary mime size)
    let body := Body.multipart source parts (Utf8.encode (Ranges.closing s.boundary))
    let total := body.length
    ((reply.result = .ok .partialContent ∧ reply.response.body = body ∧
        (∀ p ∈ parts, p.size? s.overflow = some p.size) ∧
        body.length? s.overflow = some total ∧
        reply.response.field? "Content-Length" = some (decimal total)) ↔
      total < 0x10000000000000000) ∧
    (0x10000000000000000 ≤ total → s.overflow = .abort → reply = ⟨.error .overflow, response⟩) ∧
    (0x10000000000000000 ≤ total → s.overflow = .wrap →
      reply.result = .ok .partialContent ∧ reply.response.body = body ∧
        reply.response.field? "Content-Length" =
          some (decimal (total % 0x10000000000000000)) ∧
        total % 0x10000000000000000 < total) ∧
    (∀ p ∈ parts, p.head.length < 0x7FFFFFFFFFFFFFFF → p.size? s.overflow = some p.size) ∧
    ∀ n, body.send.result = .ok n → n = total ∧ body.send.bytes.length = total := by
  intro reply parts body total
  have hreply : reply = Ranges.several s source mime size specs response :=
    serveRanges_eq_several hsource hvalue hspecs hseveral response size mime
  have hanswer : ∀ length, body.length? s.overflow = some length →
      reply.result = .ok .partialContent ∧ reply.response.body = body ∧
        reply.response.field? "Content-Length" = some (decimal length) := by
    intro length hlength
    rw [hreply, Ranges.several_of_length? s source mime response hsome hlength]
    exact ⟨rfl, rfl, Ranges.contentLength_setSpans _ _ _ _⟩
  refine ⟨⟨?_, fun hless => ?_⟩, fun hlarge habort => ?_, fun hlarge hwrap => ?_, ?_, ?_⟩
  · rintro ⟨-, -, -, hlength, -⟩
    exact Body.length?_eq_some_length_iff.mp hlength
  · have hfits : body.Fits := hless
    have hlength := (Body.length?_eq_some_length_iff (o := s.overflow)).mpr hfits
    obtain ⟨hresult, hbody, hfield⟩ := hanswer total hlength
    exact ⟨hresult, hbody, fun p hp => hfits.size?_eq hp _, hlength, hfield⟩
  · have hnone : body.length? s.overflow = none :=
      Body.length?_eq_none_iff.mpr ⟨habort, Nat.not_lt.mpr hlarge⟩
    rw [hreply, Ranges.several_of_overflow s source mime response hsome hnone]
    rfl
  · obtain ⟨hresult, hbody, hfield⟩ :=
      hanswer _ (Body.length?_multipart_of_fits_or_wrap (.inr hwrap))
    exact ⟨hresult, hbody, hfield, by omega⟩
  · intro p hp hhead
    obtain ⟨span, hspan, rfl⟩ := List.mem_map.mp hp
    obtain ⟨spec, -, hspec⟩ := List.mem_filterMap.mp hspan
    exact Ranges.size?_part hspec hhead _
  · intro n hsend
    have hcounted := Body.counted_send body n hsend
    obtain ⟨rfl, -⟩ := Body.of_send_multipart_eq_ok hsend
    exact ⟨rfl, hcounted⟩

/-- A request for all of a file, twice. -/
def twiceRequest : Request := (Request.new .get "/hello.txt").withField "Range" "bytes=0-,0-"

theorem serveRanges_length_iff_twiceRequest :
    (serveRanges StaticFile.helloSetting twiceRequest {} "/hello.txt" 5
        "text/plain").result = .ok .partialContent ∧
      serveRanges StaticFile.helloSetting twiceRequest {} "/hello.txt" 0x7FFFFFFFFFFFFFFF
        "text/plain" = ⟨.error .overflow, {}⟩ := by
  have hsource : StaticFile.helloSetting.tree.source "/hello.txt" =
      .ok (.content (Utf8.encode "hello")) := by
    decide +kernel
  have hvalue : twiceRequest.field? "range" = some "bytes=0-,0-" := by decide +kernel
  have hspecs : RangeSpec.parse? "bytes=0-,0-" = some [⟨0, -1⟩, ⟨0, -1⟩] := by decide +kernel
  constructor
  · obtain ⟨hexact, -⟩ := @serveRanges_length_iff StaticFile.helloSetting twiceRequest "/hello.txt"
      "text/plain" 5 _ hsource _ hvalue _ hspecs (by decide) (by decide +kernel) {}
    exact (hexact.mpr (by decide +kernel)).1
  · obtain ⟨-, hlarge, -⟩ := @serveRanges_length_iff StaticFile.helloSetting twiceRequest
      "/hello.txt" "text/plain" 0x7FFFFFFFFFFFFFFF _ hsource _ hvalue _ hspecs (by decide)
      (by decide +kernel) {}
    exact hlarge (by decide +kernel) rfl

/-- A server that does not check its sums. -/
def uncheckedSetting : Setting := { StaticFile.helloSetting with overflow := .wrap }

/-- The length that is announced for several ranges is not always their sum: for all of the largest
file, twice, it wraps around. -/
theorem not_forall_length_eq :
    ¬∀ (s : Setting) (request : Request) (response : Response) (path mime : Text) (size : Nat)
        (o : Outcome) (source : Source) (parts : List BytePart) (closing : Octets),
      (serveRanges s request response path size mime).result = .ok o →
      (serveRanges s request response path size mime).response.body =
        .multipart source parts closing →
      (Body.multipart source parts closing).length? s.overflow =
        some (Body.multipart source parts closing).length := by
  intro h
  have hresult : (serveRanges uncheckedSetting twiceRequest {} "/hello.txt"
      0x7FFFFFFFFFFFFFFF "text/plain").result = .ok .partialContent := by
    decide +kernel
  have hbody : (serveRanges uncheckedSetting twiceRequest {} "/hello.txt"
      0x7FFFFFFFFFFFFFFF "text/plain").response.body =
        Ranges.spansBody (.content (Utf8.encode "hello")) uncheckedSetting.boundary
          "text/plain" 0x7FFFFFFFFFFFFFFF
          [⟨0, 0x7FFFFFFFFFFFFFFE⟩, ⟨0, 0x7FFFFFFFFFFFFFFE⟩] := by
    decide +kernel
  exact absurd (h _ _ _ _ _ _ _ _ _ _ hresult hbody) (by decide +kernel)

end Webroot
