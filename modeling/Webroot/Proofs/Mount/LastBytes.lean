import Webroot.Proofs.Mount.Outcome
import Webroot.Proofs.Mount.SingleRange

/-!
# The last bytes of a file

A client may ask for the last bytes of a file and say only how many, without knowing the size of the
file. A number of bytes is kept with a minus sign, which makes it count from the end. Zero has no
sign: `-0` is read like `0-`, and the whole file is sent where there is no byte to send. All other
numbers are answered as they should be, those up to the size of the file with that many bytes and
larger ones with a failure.

Main statements: `StaticFile.answersSuffix_iff` and `StaticFile.not_forall_answersSuffix`.
-/

namespace Webroot

open Http Text

/-- A reply **sends the last bytes** of a file, as many as `n`, with their place in the head. -/
structure Reply.SendsLast (reply : Reply) (content : Octets) (n : Nat) : Prop where
  result : reply.result = .ok .partialContent
  status : reply.response.status = 206
  contentRange : reply.response.field? "Content-Range" =
    some ("bytes " ++ decimal (content.length - n) ++ "-" ++ decimal (content.length - 1) ++ "/" ++
      decimal content.length)
  contentLength : reply.response.field? "Content-Length" = some (decimal n)
  sent : reply.response.body.send = ⟨content.drop (content.length - n), .ok n⟩

/-- A reply **answers a suffix** of length `n`: it sends the last `n` bytes of a file that has as
many, if that is any byte at all, and says for all other lengths that they are not to be had. -/
def Reply.AnswersSuffix (reply : Reply) (content : Octets) (n : Nat) : Prop :=
  (1 ≤ n ∧ n ≤ content.length → reply.SendsLast content n) ∧
    (¬(1 ≤ n ∧ n ≤ content.length) →
      reply.result = .error (.rangeNotSatisfiable content.length))

namespace Ranges

variable {content : Octets} {spec : RangeSpec}

/-- The span of the last bytes is answered with these bytes. -/
theorem sendsLast_single {n : Nat} (hpos : 0 < n) (hn : n ≤ content.length)
    (hspan : spec.span? content.length = some ⟨content.length - n, content.length - 1⟩)
    (path mime : Text) (response : Response) :
    (single (.content content) path mime content.length spec response).SendsLast content n := by
  have hle : content.length - n ≤ content.length - 1 := by omega
  have hlast : content.length - 1 < content.length := by omega
  have hlength : (Span.mk (content.length - n) (content.length - 1)).length = n := by
    simp only [Span.length]
    omega
  have hslice : (Span.mk (content.length - n) (content.length - 1)).slice content =
      content.drop (content.length - n) := by
    rw [Span.slice, hlength, List.take_of_length_le]
    simp only [List.length_drop]
    omega
  rw [single_content hle hlast hspan]
  exact
    { result := rfl
      status := rfl
      contentRange := contentRange_setSpan _ _ _ _ _
      contentLength := by rw [contentLength_setSpan, hlength]
      sent := (send_bodyOf hle hlast).trans (by rw [hslice, hlength]) }

/-- A range that does not lie in the file fails. -/
theorem result_single_of_none {source : Source} {size : Nat} (hspan : spec.span? size = none)
    (path mime : Text) (response : Response) :
    (single source path mime size spec response).result = .error (.rangeNotSatisfiable size) := by
  rw [single, hspan]
  rfl

end Ranges

namespace StaticFile

variable {s : Setting} {request : Request} {path : Text} {item : Item} {content : Octets}

/-- **The last bytes.** A request for the last `n` bytes of a file is answered as it should be
exactly when `n` is not zero or the file is empty. Zero bytes of any other file are answered with
the whole file. -/
theorem answersSuffix_iff (hitem : s.tree.stat path = .ok item)
    (hnode : item.node = .file content) (hsize : content.length < 0x8000000000000000)
    (hmethod : request.method = .get) (hfresh : request.Unconditional) {z n : Nat}
    (hn : n < 0x8000000000000000)
    (hvalue : request.field? "range" = some ("bytes=-" ++ numeral z n)) (response : Response) :
    let reply := serve s request response path
    (reply.AnswersSuffix content n ↔ n ≠ 0 ∨ content = []) ∧
      (n = 0 → content ≠ [] → reply.SendsLast content content.length) := by
  intro reply
  have hreply : reply = Ranges.single (.content content) path (mediaType path) content.length
      ⟨-Int64.ofNat n, -1⟩ (response.setField "ETag" (tag item)) := by
    rw [← get_eq_single hitem hnode hfresh hvalue (RangeSpec.parse?_suffix hn z)]
    exact serve_eq_get (.inl hmethod)
  have hfails (hout : content.length < n ∨ content.length = 0) :
      reply.result = .error (.rangeNotSatisfiable content.length) := by
    rw [hreply]
    exact Ranges.result_single_of_none (RangeSpec.span?_suffix_eq_none hsize hn hout) _ _ _
  have hsends (hpos : 0 < n) (hle : n ≤ content.length) : reply.SendsLast content n := by
    rw [hreply]
    exact Ranges.sendsLast_single hpos hle (RangeSpec.span?_suffix hsize hpos hle) _ _ _
  -- zero is the first position, from which the range goes to the end of the file
  have hwhole (hzero : n = 0) (hne : content ≠ []) :
      reply.SendsLast content content.length := by
    have hpos : 0 < content.length := List.length_pos_iff.mpr hne
    have hspan : (RangeSpec.mk (-Int64.ofNat n) (-1)).span? content.length =
        some ⟨content.length - content.length, content.length - 1⟩ := by
      rw [hzero, Nat.sub_self]
      exact RangeSpec.span?_open hsize hpos
    rw [hreply]
    exact Ranges.sendsLast_single hpos (Nat.le_refl _) hspan _ _ _
  refine ⟨⟨fun hanswers => ?_, fun hcase => ⟨fun hin => hsends hin.1 hin.2, fun hout => ?_⟩⟩,
    hwhole⟩
  · by_contra hcase
    obtain ⟨hzero, hne⟩ : n = 0 ∧ content ≠ [] := by simpa [not_or] using hcase
    have hfailed := hanswers.2 (by omega)
    rw [(hwhole hzero hne).result] at hfailed
    cases hfailed
  · refine hfails ?_
    rcases hcase with hpos | rfl
    · omega
    · exact .inr rfl

/-- A request for the last two bytes of a file, with a leading zero. -/
def lastRequest : Request := (Request.new .get "/hello.txt").withField "Range" "bytes=-02"

theorem answersSuffix_iff_lastRequest :
    (serve helloSetting lastRequest {} "/hello.txt").response.body.send =
      ⟨Utf8.encode "lo", .ok 2⟩ := by
  have hitem : helloSetting.tree.stat "/hello.txt" =
      .ok { node := .file (Utf8.encode "hello"), serial := 0, modified := ⟨0, 0⟩ } := by
    decide +kernel
  have hfresh : lastRequest.Unconditional := by
    constructor <;> decide +kernel
  have hvalue : lastRequest.field? "range" = some ("bytes=-" ++ numeral 1 2) := by
    decide +kernel
  have hanswers := (answersSuffix_iff hitem rfl (by decide) rfl hfresh (by decide) hvalue {}).1.mpr
    (.inl (by decide))
  exact (hanswers.1 (by decide)).sent

/-- A request for no byte of a file. -/
def noByteRequest : Request := (Request.new .get "/hello.txt").withField "Range" "bytes=-0"

/-- A request for no byte of a file may be answered with the whole file. -/
theorem not_forall_answersSuffix :
    ¬ ∀ (s : Setting) (request : Request) (path : Text) (item : Item) (content : Octets) (n : Nat)
      (response : Response), s.tree.stat path = .ok item → item.node = .file content →
        content.length < 0x8000000000000000 → request.method = .get → request.Unconditional →
          n < 0x8000000000000000 →
            request.field? "range" = some ("bytes=-" ++ decimal n) →
              (serve s request response path).AnswersSuffix content n := by
  intro h
  have hitem : helloSetting.tree.stat "/hello.txt" =
      .ok { node := .file (Utf8.encode "hello"), serial := 0, modified := ⟨0, 0⟩ } := by
    decide +kernel
  have hfresh : noByteRequest.Unconditional := by
    constructor <;> decide +kernel
  have hvalue : noByteRequest.field? "range" = some ("bytes=-" ++ decimal 0) := by
    decide +kernel
  have hresult : (serve helloSetting noByteRequest {} "/hello.txt").result =
      .ok .partialContent := by
    decide +kernel
  have hfailed := (h helloSetting noByteRequest "/hello.txt" _ _ 0 {} hitem rfl (by decide) rfl
    hfresh (by decide) hvalue).2 (by decide)
  rw [hresult] at hfailed
  cases hfailed

end StaticFile

end Webroot
