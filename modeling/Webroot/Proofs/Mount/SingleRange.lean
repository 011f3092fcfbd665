import Mathlib.Control.Monad.Basic
import Webroot.Files.Snapshot
import Webroot.Mount.StaticFile
import Webroot.Proofs.Http.RangeField

/-!
# One range of a file

A plain file is asked for one range of its bytes. The range is sent in one of two ways: read at
once, or from the open file when it ends where the file ends. Both send the same bytes and announce
the same length (`Ranges.exists_spanBody`).

Main statement: `StaticFile.serve_single_range`, from the text of the range field to the bytes that
are sent.
-/

namespace Webroot

open Http Text

/-- A request is **unconditional** when it says nothing of a copy that the client has. -/
structure Http.Request.Unconditional (r : Request) : Prop where
  ifRange : r.field? "if-range" = none
  ifModifiedSince : r.field? "if-modified-since" = none
  ifNoneMatch : r.field? "if-none-match" = none

theorem Http.Request.Unconditional.notModified {r : Request} (h : r.Unconditional) (changed : Int)
    (tag : Text) : r.notModified changed tag = false := by
  rw [Request.notModified, h.ifRange, h.ifModifiedSince, h.ifNoneMatch]
  rfl

theorem Http.Request.Unconditional.congr {r r' : Request} (h : r.Unconditional)
    (hfields : ∀ name, r'.field? name = r.field? name) : r'.Unconditional :=
  ⟨(hfields _).trans h.ifRange, (hfields _).trans h.ifModifiedSince,
    (hfields _).trans h.ifNoneMatch⟩

/-- The bytes of a file that lie in a span. -/
def Http.Span.slice (span : Span) (content : Octets) : Octets :=
  (content.drop span.first).take span.length

theorem Http.Span.length_slice {span : Span} {content : Octets} (hle : span.first ≤ span.last)
    (hlast : span.last < content.length) : (span.slice content).length = span.length := by
  rw [Span.slice, List.length_take, List.length_drop, Span.length]
  omega

/-- A file can be read from every position in it. -/
theorem Source.seekError?_content {content : Octets} {first : Nat}
    (h : first < content.length) : (Source.content content).seekError? first = none := by
  rw [Source.seekError?]
  exact if_neg (by omega)

/-! ### The body for a span -/

namespace Ranges

/-- The body for a span that lies in a file. -/
def bodyOf (content : Octets) (span : Span) : Body :=
  if span.last = content.length - 1 then .file (.content content) span.first span.length
  else .bytes (span.slice content)

variable {content : Octets} {span : Span} (hle : span.first ≤ span.last)
  (hlast : span.last < content.length)

include hle hlast

/-- A span that lies in a file has a body. -/
theorem spanBody_content (path : Text) :
    spanBody (.content content) path span content.length = .ok (bodyOf content span) := by
  have hseek : (Source.content content).seekError? span.first = none :=
    Source.seekError?_content (by omega)
  have hread : readSpan (.content content) path span = .ok (span.slice content) := by
    have hlength := Span.length_slice hle hlast
    rw [Span.slice] at hlength
    simp only [readSpan, hseek, Source.read, hlength, Nat.lt_irrefl, if_false]
    rfl
  rw [spanBody, bodyOf]
  by_cases hend : span.last = content.length - 1
  · rw [if_pos hend, if_pos hend, hseek]
  · rw [if_neg hend, if_neg hend, hread]
    rfl

/-- Both bodies announce the length of the span. -/
theorem length_bodyOf : (bodyOf content span).length = span.length := by
  rw [bodyOf]
  split_ifs
  · rfl
  · exact Span.length_slice hle hlast

/-- Both bodies send the bytes of the span. -/
theorem send_bodyOf : (bodyOf content span).send = ⟨span.slice content, .ok span.length⟩ := by
  have hsend : (bodyOf content span).send = .ofBytes (span.slice content) := by
    rw [bodyOf]
    split_ifs
    · rfl
    · rfl
  rw [hsend, Sent.ofBytes, Span.length_slice hle hlast]

/-- A range whose span lies in a file is answered with that span. -/
theorem single_content {spec : RangeSpec} (hspan : spec.span? content.length = some span)
    (path mime : Text) (response : Response) :
    single (.content content) path mime content.length spec response =
      ⟨.ok .partialContent,
        setSpan response mime span content.length (bodyOf content span)⟩ := by
  rw [single, hspan]
  simp only [spanBody_content hle hlast]

omit hle hlast

theorem contentRange_setSpan (response : Response) (mime : Text) (span : Span) (size : Nat)
    (body : Body) :
    (setSpan response mime span size body).field? "Content-Range" =
      some (span.contentRange size) := by
  rw [setSpan, Response.field?_setBody, Response.field?_setField_of_ne (by decide),
    Response.field?_setField]

theorem contentLength_setSpan (response : Response) (mime : Text) (span : Span) (size : Nat)
    (body : Body) :
    (setSpan response mime span size body).field? "Content-Length" =
      some (decimal span.length) := by
  rw [setSpan, Response.field?_setBody, Response.field?_setField]

end Ranges

/-! ### From the range field to the bytes -/

/-- A text is the value of a range field that **asks for one range** of a file of `size` bytes,
from position `a` to `b`: with both positions, or with the first alone. -/
inductive AsksFor (size : Nat) : Text → Nat → Nat → Prop
  | closed (z w : Nat) {a b : Nat} : a ≤ b → b < 0x8000000000000000 →
      AsksFor size ("bytes=" ++ (numeral z a ++ '-' :: numeral w b)) a b
  | toEnd (z a : Nat) : AsksFor size ("bytes=" ++ (numeral z a ++ ['-'])) a (size - 1)

/-- The field is read as one range, and its span is cut off at the end of the file. -/
theorem AsksFor.exists_spec {size a b : Nat} {value : Text} (h : AsksFor size value a b)
    (hsize : size < 0x8000000000000000) (ha : a < size) :
    ∃ spec, RangeSpec.parse? value = some [spec] ∧
      spec.span? size = some ⟨a, min b (size - 1)⟩ := by
  cases h with
  | closed z w hab hb =>
    exact ⟨_, RangeSpec.parse?_closed (by omega) hb z w, RangeSpec.span?_closed hsize ha hab hb⟩
  | toEnd z =>
    rw [Nat.min_self]
    exact ⟨_, RangeSpec.parse?_open (by omega) z, RangeSpec.span?_open hsize ha⟩

theorem AsksFor.le {size a b : Nat} {value : Text} (h : AsksFor size value a b)
    (ha : a < size) : a ≤ b := by
  cases h with
  | closed z w hab hb => exact hab
  | toEnd z => omega

section Reply

variable {s : Setting} {request : Request} {path : Text} {source : Source}

/-- A range field with one range is answered with that range. -/
theorem serveRanges_eq_single (hsource : s.tree.source path = .ok source) {value : Text}
    (hvalue : request.field? "range" = some value) {spec : RangeSpec}
    (hspec : RangeSpec.parse? value = some [spec]) (response : Response) (size : Nat)
    (mime : Text) :
    serveRanges s request response path size mime =
      Ranges.single source path mime size spec response := by
  simp only [serveRanges, hvalue, Option.getD_some, hspec, hsource]

end Reply

namespace StaticFile

variable {s : Setting} {request : Request} {path : Text} {item : Item} {content : Octets}

/-- A request that says nothing of a copy is answered with the one range that it asks for. -/
theorem get_eq_single (hitem : s.tree.stat path = .ok item) (hnode : item.node = .file content)
    (hfresh : request.Unconditional) {value : Text} (hvalue : request.field? "range" = some value)
    {spec : RangeSpec} (hspec : RangeSpec.parse? value = some [spec]) (response : Response) :
    get s request response path =
      Ranges.single (.content content) path (mediaType path) content.length spec
        (response.setField "ETag" (tag item)) := by
  have hsize : item.size = content.length := by rw [Item.size, hnode]
  rw [← serveRanges_eq_single (FileTree.source_of_file hitem hnode) hvalue hspec, ← hsize]
  simp only [get, hitem, hfresh.notModified, hvalue]
  rfl

/-- **A single range.** The bytes from `a` to `b` of a file, or to its end if that comes first, are
sent as they are in the file, with their place and their number in the head. They are sent from the
open file when they end it, and are read at once otherwise. -/
theorem serve_single_range (hitem : s.tree.stat path = .ok item)
    (hnode : item.node = .file content) (hsize : content.length < 0x8000000000000000)
    (hmethod : request.method = .get) (hfresh : request.Unconditional) {value : Text}
    (hvalue : request.field? "range" = some value) {a b : Nat} (ha : a < content.length)
    (hasks : AsksFor content.length value a b) (response : Response) :
    let reply := serve s request response path
    let last := min b (content.length - 1)
    reply.result = .ok .partialContent ∧
      reply.response.status = 206 ∧
      reply.response.field? "Content-Range" =
        some ("bytes " ++ decimal a ++ "-" ++ decimal last ++ "/" ++ decimal content.length) ∧
      reply.response.field? "Content-Length" = some (decimal (last - a + 1)) ∧
      reply.response.body.length = last - a + 1 ∧
      reply.response.body.send =
        ⟨(content.drop a).take (last - a + 1), .ok (last - a + 1)⟩ ∧
      reply.response.body =
        if last = content.length - 1 then .file (.content content) a (last - a + 1)
        else .bytes ((content.drop a).take (last - a + 1)) := by
  intro reply last
  obtain ⟨spec, hspec, hspan⟩ := hasks.exists_spec hsize ha
  have hab := hasks.le ha
  have hle : a ≤ last := by omega
  have hlast : last < content.length := by omega
  -- the field `ETag` is set before the range is looked at
  have hreply : reply = ⟨.ok .partialContent,
      Ranges.setSpan (response.setField "ETag" (tag item)) (mediaType path) ⟨a, last⟩
        content.length (Ranges.bodyOf content ⟨a, last⟩)⟩ := by
    rw [← Ranges.single_content hle hlast hspan, ← get_eq_single hitem hnode hfresh hvalue hspec]
    simp only [reply, serve, hmethod]
  rw [hreply]
  refine ⟨rfl, rfl, Ranges.contentRange_setSpan _ _ _ _ _, Ranges.contentLength_setSpan _ _ _ _ _,
    Ranges.length_bodyOf hle hlast, Ranges.send_bodyOf hle hlast, rfl⟩

/-- A setting with one file. -/
def helloSetting : Setting :=
  { tree := .ofFiles ⟨0, 0⟩ [("/hello.txt", Utf8.encode "hello")], now := ⟨0, 0⟩, process := 1 }

/-- A request for the second to the fourth byte of a file, with a leading zero. -/
def middleRequest : Request := (Request.new .get "/hello.txt").withField "Range" "bytes=01-3"

theorem serve_single_range_middleRequest :
    (serve helloSetting middleRequest {} "/hello.txt").response.body.send =
      ⟨Utf8.encode "ell", .ok 3⟩ := by
  have hitem : helloSetting.tree.stat "/hello.txt" =
      .ok { node := .file (Utf8.encode "hello"), serial := 0, modified := ⟨0, 0⟩ } := by
    decide +kernel
  have hfresh : middleRequest.Unconditional := by
    constructor <;> decide +kernel
  have hvalue : middleRequest.field? "range" = some "bytes=01-3" := by
    decide +kernel
  have hasks : AsksFor 5 "bytes=01-3" 1 3 := by
    have hfield : ("bytes=01-3" : Text) = "bytes=" ++ (numeral 1 1 ++ '-' :: numeral 0 3) := by
      decide +kernel
    rw [hfield]
    exact .closed 1 0 (by decide) (by decide)
  obtain ⟨-, -, -, -, -, hsend, -⟩ :=
    serve_single_range hitem rfl (by decide) rfl hfresh hvalue (by decide) hasks {}
  exact hsend

end StaticFile

end Webroot
