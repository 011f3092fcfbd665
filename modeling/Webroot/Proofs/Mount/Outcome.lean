import Mathlib.Tactic.SplitIfs
import Webroot.Mount.StaticFile

/-!
# What becomes of a request for a plain file

A request for a plain file that does not fail has one of three outcomes: the client's copy is still
good, ranges of the file are sent, or the file is sent. The status of the response says which.

Main statement: `StaticFile.serve_outcome`.
-/

namespace Webroot

open Http Text

/-- A reply to a request for a plain file that does not fail: the outcome and the status. -/
inductive PlainOutcome : Outcome → Response → Prop
  | whole {r : Response} : r.status = 200 → PlainOutcome .ok r
  | ranges {r : Response} : r.status = 206 → PlainOutcome .partialContent r
  | unchanged {r : Response} : r.status = 304 → r.body = .empty → PlainOutcome .notModified r

/-! ### Ranges -/

variable {s : Setting} {request : Request} {response : Response} {path mime : Text} {size : Nat}
  {o : Outcome}

/-- One range is answered with a failure that leaves the response as it was, or with its span. -/
theorem Ranges.single_cases (source : Source) (path mime : Text) (size : Nat) (spec : RangeSpec)
    (response : Response) :
    (∃ f, single source path mime size spec response = failed f response) ∨
      ∃ span body, spec.span? size = some span ∧ spanBody source path span size = .ok body ∧
        single source path mime size spec response =
          ⟨.ok .partialContent, setSpan response mime span size body⟩ := by
  rw [single]
  split
  · exact .inl ⟨_, rfl⟩
  · rename_i span hspan
    cases hbody : spanBody source path span size with
    | error f => exact .inl ⟨f, rfl⟩
    | ok body => exact .inr ⟨span, body, hspan, hbody, rfl⟩

/-- Several ranges are answered with a failure that leaves the response as it was, or with a body
whose length was added up. -/
theorem Ranges.several_cases (s : Setting) (source : Source) (mime : Text) (size : Nat)
    (specs : List RangeSpec) (response : Response) :
    (∃ f, several s source mime size specs response = failed f response) ∨
      ∃ spans length, (spansBody source s.boundary mime size spans).length? s.overflow =
          some length ∧
        several s source mime size specs response =
          ⟨.ok .partialContent,
            setSpans response s.boundary length (spansBody source s.boundary mime size spans)⟩ := by
  rw [several]
  split
  · exact .inl ⟨_, rfl⟩
  · dsimp only
    split
    · exact .inl ⟨_, rfl⟩
    · rename_i length hlength
      exact .inr ⟨_, length, hlength, rfl⟩

theorem Ranges.single_outcome {source : Source} {spec : RangeSpec}
    (h : (single source path mime size spec response).result = .ok o) :
    o = .partialContent ∧ (single source path mime size spec response).response.status = 206 := by
  obtain ⟨f, hreply⟩ | ⟨span, body, -, -, hreply⟩ :=
    single_cases source path mime size spec response
  · rw [hreply] at h
    cases h
  · rw [hreply] at h ⊢
    exact ⟨(Except.ok.inj h).symm, rfl⟩

theorem Ranges.several_outcome {source : Source} {specs : List RangeSpec}
    (h : (several s source mime size specs response).result = .ok o) :
    o = .partialContent ∧ (several s source mime size specs response).response.status = 206 := by
  obtain ⟨f, hreply⟩ | ⟨spans, length, -, hreply⟩ :=
    several_cases s source mime size specs response
  · rw [hreply] at h
    cases h
  · rw [hreply] at h ⊢
    exact ⟨(Except.ok.inj h).symm, rfl⟩

/-- A range field is answered in one of three ways: with a failure that leaves the response as it
was, with one range, or with several. -/
theorem serveRanges_cases (s : Setting) (request : Request) (response : Response) (path : Text)
    (size : Nat) (mime : Text) :
    (∃ f, serveRanges s request response path size mime = Ranges.failed f response) ∨
      (∃ source spec, serveRanges s request response path size mime =
        Ranges.single source path mime size spec response) ∨
      ∃ source specs, serveRanges s request response path size mime =
        Ranges.several s source mime size specs response := by
  rw [serveRanges]
  split
  · exact .inl ⟨_, rfl⟩
  · split
    · exact .inl ⟨_, rfl⟩
    · -- by the number of ranges: none, one, several
      split
      · exact .inl ⟨_, rfl⟩
      · exact .inr (.inl ⟨_, _, rfl⟩)
      · exact .inr (.inr ⟨_, _, rfl⟩)

/-- A range field is answered with ranges or not at all. -/
theorem serveRanges_outcome (h : (serveRanges s request response path size mime).result = .ok o) :
    o = .partialContent ∧
      (serveRanges s request response path size mime).response.status = 206 := by
  obtain ⟨f, hreply⟩ | ⟨source, spec, hreply⟩ | ⟨source, specs, hreply⟩ :=
    serveRanges_cases s request response path size mime
  · rw [hreply] at h
    cases h
  · rw [hreply] at h ⊢
    exact Ranges.single_outcome h
  · rw [hreply] at h ⊢
    exact Ranges.several_outcome h

/-! ### Files -/

namespace StaticFile

/-- The two methods that ask for a file. -/
theorem serve_eq_get (hmethod : request.method = .get ∨ request.method = .head) :
    serve s request response path = get s request response path := by
  rcases hmethod with hmethod | hmethod
  · simp only [serve, hmethod]
  · simp only [serve, hmethod]

/-- A request for the content of a file is answered in one of five ways: the file cannot be looked
up; the client's copy is still good; ranges are asked for; the file cannot be opened; or it is sent
as a whole. In all of them but the first the tag is set. -/
theorem get_cases (s : Setting) (request : Request) (response : Response) (path : Text) :
    (∃ e, s.tree.stat path = .error e ∧
      get s request response path = ⟨.error (lookupFailure request.path e), response⟩) ∨
      ∃ item, s.tree.stat path = .ok item ∧
        let tagged := response.setField "ETag" (tag item)
        get s request response path =
            ⟨.ok .notModified, (tagged.setStatus 304).setBody .empty⟩ ∨
          get s request response path =
            serveRanges s request tagged path item.size (mediaType path) ∨
          (∃ e, Source.ofItem item = .error e ∧
            get s request response path = ⟨.error (lookupFailure request.path e), tagged⟩) ∨
          ∃ source, Source.ofItem item = .ok source ∧
            get s request response path =
              ⟨.ok .ok, setFile tagged item source (mediaType path)⟩ := by
  rw [get]
  split
  · rename_i e hstat
    exact .inl ⟨e, hstat, rfl⟩
  · rename_i item hstat
    refine .inr ⟨item, hstat, ?_⟩
    dsimp only
    split_ifs
    · exact .inl rfl
    · exact .inr (.inl rfl)
    · cases hsource : Source.ofItem item with
      | error e => exact .inr (.inr (.inl ⟨e, rfl, rfl⟩))
      | ok source => exact .inr (.inr (.inr ⟨source, rfl, rfl⟩))

theorem get_outcome (h : (get s request response path).result = .ok o) :
    PlainOutcome o (get s request response path).response := by
  obtain ⟨e, -, hreply⟩ | ⟨item, -, hreply | hreply | ⟨e, -, hreply⟩ | ⟨source, -, hreply⟩⟩ :=
    get_cases s request response path
  · rw [hreply] at h
    cases h
  · rw [hreply] at h ⊢
    obtain rfl := Except.ok.inj h
    exact .unchanged rfl rfl
  · rw [hreply] at h ⊢
    obtain ⟨rfl, hstatus⟩ := serveRanges_outcome h
    exact .ranges hstatus
  · rw [hreply] at h
    cases h
  · rw [hreply] at h ⊢
    obtain rfl := Except.ok.inj h
    exact .whole rfl

/-- **Plain files.** The outcome of a request that does not fail, and the status that says so. -/
theorem serve_outcome (h : (serve s request response path).result = .ok o) :
    PlainOutcome o (serve s request response path).response := by
  rw [serve] at h ⊢
  split at h
  · exact get_outcome h
  · exact get_outcome h
  · cases h
  · obtain rfl := Except.ok.inj h
    exact .whole rfl

end StaticFile

end Webroot
