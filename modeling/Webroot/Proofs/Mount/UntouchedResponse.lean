import Webroot.Mount.Listing
import Webroot.Proofs.Mount.SeveralRanges

/-!
# Failures that leave the response alone

Ranges can fail at many points: before the file is opened, when it is opened, when the ranges are
compared with its size, when it is set to a position and read, and when the lengths of several
ranges are added up. What is stored for an answer depends on all of these, so none of it may be
stored before the last of them has gone well. Here
every failure is listed with what brings it about. The list is complete, and at the end of each the
response is the one from before. A listing has one failure only, for all of the page is made of
what was read at the start.

A span that ends the file is sent from the open file. It is not read when it is answered and so
cannot turn out to be too short.

Main statement: `eq_error_iff_fails`.
-/

namespace Webroot

open Http Text

namespace Ranges

/-! ### The body for one span -/

/-- What keeps one span of a file from being sent. -/
inductive SpanFails (source : Source) (path : Text) (span : Span) (size : Nat) : Failure → Prop
  /-- The file has no such position. -/
  | seek {e : TransferError} : source.seekError? span.first = some e →
      SpanFails source path span size (.cannotSeek path)
  /-- The file cannot be read there. -/
  | read {e : TransferError} : source.seekError? span.first = none → span.last ≠ size - 1 →
      source.read span.first span.length = .error e →
      SpanFails source path span size (.cannotRead path)
  /-- The file ends before the span does. -/
  | short {bytes : Octets} : source.seekError? span.first = none → span.last ≠ size - 1 →
      source.read span.first span.length = .ok bytes → bytes.length < span.length →
      SpanFails source path span size (.changed path)

variable {s : Setting} {source : Source} {path mime : Text} {span : Span} {size : Nat}
  {f : Failure} {spec : RangeSpec} {specs : List RangeSpec} {response response' : Response}

/-- A span that does not end the file is read when it is answered. -/
theorem readSpan_eq_error_iff (hlast : span.last ≠ size - 1) :
    readSpan source path span = .error f ↔ SpanFails source path span size f := by
  constructor
  · intro h
    rw [readSpan] at h
    split at h
    case h_1 e hseek =>
      obtain rfl := Except.error.inj h
      exact .seek hseek
    case h_2 hseek =>
      split at h
      case h_1 e hread =>
        obtain rfl := Except.error.inj h
        exact .read hseek hlast hread
      case h_2 bytes hread =>
        split_ifs at h with hshort
        obtain rfl := Except.error.inj h
        exact .short hseek hlast hread hshort
  · rintro (hseek | ⟨hseek, -, hread⟩ | ⟨hseek, -, hread, hshort⟩)
    · simp only [readSpan, hseek]
    · simp only [readSpan, hseek, hread]
    · simp only [readSpan, hseek, hread, if_pos hshort]

/-- A span that ends the file can only fail to be set to its first byte. -/
theorem seek_eq_error_iff (hlast : span.last = size - 1) :
    source.seekError? span.first ≠ none ∧ f = .cannotSeek path ↔
      SpanFails source path span size f := by
  constructor
  · rintro ⟨hseek, rfl⟩
    obtain ⟨e, he⟩ := Option.ne_none_iff_exists'.mp hseek
    exact .seek he
  · rintro (hseek | ⟨-, hne, -⟩ | ⟨-, hne, -, -⟩)
    · exact ⟨by simp [hseek], rfl⟩
    · exact absurd hlast hne
    · exact absurd hlast hne

theorem spanBody_eq_error_iff :
    spanBody source path span size = .error f ↔ SpanFails source path span size f := by
  rw [spanBody]
  split_ifs with hlast
  · rw [← seek_eq_error_iff hlast]
    cases source.seekError? span.first with
    | some e => simp [eq_comm]
    | none => simp
  · rw [← readSpan_eq_error_iff hlast]
    cases readSpan source path span with
    | error g => simp [Except.map]
    | ok bytes => simp [Except.map]

/-! ### One range, and several -/

theorem failed_eq_error_iff {g : Failure} :
    failed g response = ⟨.error f, response'⟩ ↔ f = g ∧ response' = response := by
  simp [failed, eq_comm]

/-- One range is not answered when it lies outside of the file, or when its span fails. -/
theorem single_eq_error_iff :
    single source path mime size spec response = ⟨.error f, response'⟩ ↔
      (spec.span? size = none ∧ f = .rangeNotSatisfiable size ∨
        ∃ span, spec.span? size = some span ∧ SpanFails source path span size f) ∧
        response' = response := by
  rw [single]
  cases spec.span? size with
  | none => simp [failed_eq_error_iff]
  | some span =>
    have hbody := @spanBody_eq_error_iff source path span size f
    simp only [reduceCtorEq, false_and, false_or, Option.some.injEq, exists_eq_left', ← hbody]
    cases spanBody source path span size with
    | error g => simp [failed_eq_error_iff, eq_comm]
    | ok body => simp

/-- Several ranges are not answered when all of them lie outside of the file, or when adding up
their lengths is broken off. -/
theorem several_eq_error_iff :
    several s source mime size specs response = ⟨.error f, response'⟩ ↔
      (spansOf specs size = [] ∧ f = .rangeNotSatisfiable size ∨
        spansOf specs size ≠ [] ∧ s.overflow = .abort ∧
          ¬(spansBody source s.boundary mime size (spansOf specs size)).Fits ∧ f = .overflow) ∧
        response' = response := by
  by_cases hnone : spansOf specs size = []
  · rw [several_of_spansOf_eq_nil _ _ _ _ hnone, failed_eq_error_iff]
    simp [hnone]
  · cases hlength : (spansBody source s.boundary mime size (spansOf specs size)).length?
        s.overflow with
    | none =>
      rw [several_of_overflow s _ _ _ hnone hlength, failed_eq_error_iff]
      obtain ⟨habort, hfits⟩ := Body.length?_eq_none_iff.mp hlength
      simp [hnone, habort, hfits]
    | some length =>
      rw [several_of_length? s _ _ _ hnone hlength]
      refine iff_of_false (fun h => by cases h) ?_
      rintro ⟨⟨hnil, -⟩ | ⟨-, habort, hfits, -⟩, -⟩
      · exact hnone hnil
      · cases hlength.symm.trans (Body.length?_eq_none_iff.mpr ⟨habort, hfits⟩)

/-! ### A range field -/

/-- What keeps a range field from being answered: every failure, and what brings it about. -/
inductive Fails (s : Setting) (value path mime : Text) (size : Nat) : Failure → Prop
  /-- The field cannot be read. -/
  | unread : RangeSpec.parse? value = none → Fails s value path mime size (.badRange value)
  /-- The file cannot be opened. -/
  | unopened {specs : List RangeSpec} {e : LookupError} :
      RangeSpec.parse? value = some specs → s.tree.source path = .error e →
      Fails s value path mime size (.cannotOpen path)
  /-- The field names no range. -/
  | noRange {source : Source} : RangeSpec.parse? value = some [] →
      s.tree.source path = .ok source → Fails s value path mime size (.badRange value)
  /-- Every range lies outside of the file. -/
  | outside {specs : List RangeSpec} {source : Source} :
      RangeSpec.parse? value = some specs → specs ≠ [] → s.tree.source path = .ok source →
      spansOf specs size = [] → Fails s value path mime size (.rangeNotSatisfiable size)
  /-- The one range cannot be sent. -/
  | span {spec : RangeSpec} {source : Source} {span : Span} {f : Failure} :
      RangeSpec.parse? value = some [spec] → s.tree.source path = .ok source →
      spec.span? size = some span → SpanFails source path span size f →
      Fails s value path mime size f
  /-- The lengths of several ranges cannot be added up. -/
  | tooLong {specs : List RangeSpec} {source : Source} :
      RangeSpec.parse? value = some specs → 2 ≤ specs.length → s.tree.source path = .ok source →
      spansOf specs size ≠ [] → s.overflow = .abort →
      ¬(spansBody source s.boundary mime size (spansOf specs size)).Fits →
      Fails s value path mime size .overflow

end Ranges

variable {s : Setting} {request : Request} {response response' : Response} {path mime : Text}
  {size : Nat} {f : Failure}

/-- An attempt that fails has one of the listed reasons and leaves the response as it was. -/
theorem fails_of_serveRanges_eq_error
    (h : serveRanges s request response path size mime = ⟨.error f, response'⟩) :
    Ranges.Fails s ((request.field? "range").getD []) path mime size f ∧ response' = response := by
  simp only [serveRanges] at h
  generalize (request.field? "range").getD [] = value at h ⊢
  split at h
  case h_1 hparse =>
    obtain ⟨rfl, hresponse⟩ := Ranges.failed_eq_error_iff.mp h
    exact ⟨.unread hparse, hresponse⟩
  case h_2 specs hparse =>
    split at h
    case h_1 hsource =>
      obtain ⟨rfl, hresponse⟩ := Ranges.failed_eq_error_iff.mp h
      exact ⟨.unopened hparse hsource, hresponse⟩
    case h_2 source hsource =>
      -- by the number of ranges: none, one, several
      split at h
      · obtain ⟨rfl, hresponse⟩ := Ranges.failed_eq_error_iff.mp h
        exact ⟨.noRange hparse hsource, hresponse⟩
      · obtain ⟨⟨hspan, rfl⟩ | ⟨span, hspan, hfails⟩, hresponse⟩ := Ranges.single_eq_error_iff.mp h
        · exact ⟨.outside hparse (by simp) hsource (by simp [Ranges.spansOf, hspan]), hresponse⟩
        · exact ⟨.span hparse hsource hspan hfails, hresponse⟩
      · rename_i hnil hone
        obtain ⟨⟨hnone, rfl⟩ | ⟨hsome, habort, hfits, rfl⟩, hresponse⟩ :=
          Ranges.several_eq_error_iff.mp h
        · exact ⟨.outside hparse hnil hsource hnone, hresponse⟩
        · refine ⟨.tooLong hparse ?_ hsource hsome habort hfits, hresponse⟩
          rcases specs with _ | ⟨spec, _ | ⟨spec', specs⟩⟩
          · exact absurd rfl hnil
          · exact absurd rfl (hone spec)
          · simp

/-- Each of the listed reasons makes the attempt fail. -/
theorem serveRanges_eq_failed
    (h : Ranges.Fails s ((request.field? "range").getD []) path mime size f) :
    serveRanges s request response path size mime = Ranges.failed f response := by
  simp only [serveRanges]
  generalize (request.field? "range").getD [] = value at h ⊢
  rcases h with hparse | ⟨hparse, hsource⟩ | ⟨hparse, hsource⟩ | ⟨hparse, hne, hsource, hnone⟩ |
    ⟨hparse, hsource, hspan, hfails⟩ | ⟨hparse, hseveral, hsource, hsome, habort, hfits⟩
  · simp only [hparse]
  · simp only [hparse, hsource]
  · simp only [hparse, hsource]
  · rename_i specs source
    simp only [hparse, hsource]
    rcases specs with _ | ⟨spec, _ | ⟨spec', specs⟩⟩
    · exact absurd rfl hne
    · have hspan : spec.span? size = none :=
        List.filterMap_eq_nil_iff.mp hnone spec (List.mem_singleton_self spec)
      exact Ranges.single_eq_error_iff.mpr ⟨.inl ⟨hspan, rfl⟩, rfl⟩
    · exact Ranges.several_of_spansOf_eq_nil _ _ _ _ hnone
  · simp only [hparse, hsource]
    exact Ranges.single_eq_error_iff.mpr ⟨.inr ⟨_, hspan, hfails⟩, rfl⟩
  · rename_i specs source
    simp only [hparse, hsource]
    rcases specs with _ | ⟨spec, _ | ⟨spec', specs⟩⟩
    · cases hseveral
    · simp at hseveral
    · exact Ranges.several_eq_error_iff.mpr ⟨.inr ⟨hsome, habort, hfits, rfl⟩, rfl⟩

/-! ### Listings -/

/-- A directory is not listed when it cannot be read. -/
theorem serveListing_eq_error_iff {t : FileTree} {hidden : HiddenNames} {dir : Text} :
    serveListing t hidden request response dir = ⟨.error f, response'⟩ ↔
      (t.list? dir = none ∧ f = .cannotList dir) ∧ response' = response := by
  rw [serveListing, Listing.entries]
  cases t.list? dir with
  | none => simp [eq_comm]
  | some names => simp

/-- **Failures leave the response alone.** Ranges of a file, and a listing of a directory, end in a
failure exactly for the listed reasons, which do not depend on the response, and the response is
then the one from before: its status, its fields, its body and its local path. -/
theorem eq_error_iff_fails (s : Setting) (t : FileTree) (hidden : HiddenNames) (request : Request)
    (response response' : Response) (path dir mime : Text) (size : Nat) (f : Failure) :
    (serveRanges s request response path size mime = ⟨.error f, response'⟩ ↔
      Ranges.Fails s ((request.field? "range").getD []) path mime size f ∧ response' = response) ∧
    (serveListing t hidden request response dir = ⟨.error f, response'⟩ ↔
      (t.list? dir = none ∧ f = .cannotList dir) ∧ response' = response) := by
  refine ⟨⟨fails_of_serveRanges_eq_error, ?_⟩, serveListing_eq_error_iff⟩
  rintro ⟨hfails, rfl⟩
  exact serveRanges_eq_failed hfails

/-- A file of five bytes of which nine were known before. -/
example (response : Response) :
    serveRanges StaticFile.helloSetting
      ((Request.new .get "/hello.txt").withField "Range" "bytes=3-7") response "/hello.txt" 9
      "text/plain" = ⟨.error (.changed "/hello.txt"), response⟩ := by
  rfl

end Webroot
