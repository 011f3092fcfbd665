import Webroot.Proofs.Mount.Answers
import Webroot.Proofs.Mount.Revalidation
import Webroot.Proofs.Mount.UntouchedResponse

/-!
# What a failed attempt leaves behind

The report of a failure is made from the response of the attempt that failed, so whatever the
attempt had stored by then would be sent with the report. It is little. Ranges and listings that
fail leave the response as it was, and a plain file has stored its tag by the time it is opened or
its ranges are read. A bare mount adds nothing to this but the local path, which is not sent. The
tag is among the fields that a report removes, and so the report is the one that is made from a new
response.

Main statement: `Mount.report_of_error`.
-/

namespace Webroot

open Http Text

/-! ### Removing what was set -/

namespace Http.Response

variable {r : Response}

/-- A field that was set and then removed might as well not have been set. -/
theorem removeField_setField (r : Response) (name value : Text) :
    (r.setField name value).removeField name = r.removeField name := by
  have hput : ∀ fields : List (Text × Text),
      (putField name value fields).filter (fun f => ¬SameLetters f.1 name) =
        fields.filter fun f => ¬SameLetters f.1 name := by
    intro fields
    induction fields with
    | nil => simp [putField, SameLetters]
    | cons f fields ih =>
      rw [putField]
      split_ifs with hsame
      · simp [hsame]
      · simpa [hsame] using ih
  exact congrArg (fun fields => { r with fields }) (hput r.fields)

/-- The report of a failure does not show a tag that was stored before. -/
theorem setFailure_setField_tag (r : Response) (value : Text) (f : Failure) :
    (r.setField "ETag" value).setFailure f = r.setFailure f := by
  have hremoved : ((r.setField "ETag" value).setStatus f.status).removeContentFields =
      (r.setStatus f.status).removeContentFields := by
    have hstatus : (r.setField "ETag" value).setStatus f.status =
        (r.setStatus f.status).setField "ETag" value := rfl
    rw [hstatus, removeContentFields, removeField_setField]
    rfl
  rw [setFailure, hremoved]
  rfl

/-- The local path is no part of the report of a failure. -/
theorem setFailure_setFilename (r : Response) (path : Text) (f : Failure) :
    (r.setFilename path).setFailure f = (r.setFailure f).setFilename path := by
  have hstatus : (r.setFilename path).setStatus f.status =
      (r.setStatus f.status).setFilename path := rfl
  have hremove : ∀ (r : Response) (name : Text),
      (r.setFilename path).removeField name = (r.removeField name).setFilename path :=
    fun _ _ => rfl
  have hfield : ∀ r : Response,
      (r.setFilename path).setFailureField f = (r.setFailureField f).setFilename path := by
    intro r
    rw [setFailureField.eq_def, setFailureField.eq_def]
    split <;> rfl
  have hpage : ∀ (r : Response) (page : Text),
      (r.setFilename path).setPage page = (r.setPage page).setFilename path := fun _ _ => rfl
  simp only [setFailure, removeContentFields, hstatus, hremove, hfield, hpage]

end Http.Response

/-! ### Ranges and listings -/

section Reply

variable {s : Setting} {request : Request} {response : Response} {path mime : Text} {size : Nat}
  {f : Failure}

/-- A range field that cannot be answered leaves the response as it was. -/
theorem response_serveRanges_of_error
    (h : (serveRanges s request response path size mime).result = .error f) :
    (serveRanges s request response path size mime).response = response := by
  have hreply : serveRanges s request response path size mime =
      ⟨.error f, (serveRanges s request response path size mime).response⟩ := by
    rw [← h]
  exact (fails_of_serveRanges_eq_error hreply).2

/-- A directory that cannot be listed leaves the response as it was. -/
theorem response_serveListing_of_error {t : FileTree} {hidden : HiddenNames} {dir : Text}
    (h : (serveListing t hidden request response dir).result = .error f) :
    (serveListing t hidden request response dir).response = response := by
  have hreply : serveListing t hidden request response dir =
      ⟨.error f, (serveListing t hidden request response dir).response⟩ := by
    rw [← h]
  exact (serveListing_eq_error_iff.mp hreply).2

/-! ### Plain files -/

/-- A response is **at most tagged** after an attempt when it is the one from before, or has the tag
of a file besides. -/
def AtMostTagged (before after : Response) : Prop :=
  after = before ∨ ∃ item, after = before.setField "ETag" (StaticFile.tag item)

/-- A tag does not show in the report of a failure. -/
theorem AtMostTagged.setFailure_eq {before after : Response} (h : AtMostTagged before after)
    (f : Failure) : after.setFailure f = before.setFailure f := by
  rcases h with rfl | ⟨item, rfl⟩
  · rfl
  · exact Response.setFailure_setField_tag _ _ _

namespace StaticFile

/-- A file that cannot be sent fails before its tag is set, when its ranges are read, or when it is
opened. -/
theorem atMostTagged_of_get_error (h : (get s request response path).result = .error f) :
    AtMostTagged response (get s request response path).response := by
  obtain ⟨e, -, hreply⟩ | ⟨item, -, hreply | hreply | ⟨e, -, hreply⟩ | ⟨source, -, hreply⟩⟩ :=
    get_cases s request response path
  · rw [hreply]
    exact .inl rfl
  · rw [hreply] at h
    cases h
  · rw [hreply] at h ⊢
    rw [response_serveRanges_of_error h]
    exact .inr ⟨item, rfl⟩
  · rw [hreply]
    exact .inr ⟨item, rfl⟩
  · rw [hreply] at h
    cases h

/-- A plain file that cannot be sent leaves its tag at most. -/
theorem atMostTagged_of_serve_error (h : (serve s request response path).result = .error f) :
    AtMostTagged response (serve s request response path).response := by
  rw [serve] at h ⊢
  split at h
  · exact atMostTagged_of_get_error h
  · exact atMostTagged_of_get_error h
  · exact .inl rfl
  · cases h

end StaticFile

end Reply

/-! ### Directories and mounts -/

namespace Mount

variable {m : Mount} {s : Setting} {x : Exchange} {f : Failure}

/-- A directory that cannot be answered leaves the response as it was. -/
theorem response_serveDirectory_of_error (h : (m.serveDirectory s x).result = .error f) :
    (m.serveDirectory s x).exchange.response = x.response := by
  rw [serveDirectory] at h ⊢
  split_ifs at h ⊢ with hend hindex
  · rfl
  · exact response_serveListing_of_error h

/-- A bare mount that fails leaves the local path that it reached, and the tag of a file at most. -/
theorem exists_atMostTagged_of_error (hm : m.Bare) (h : (m.serve s x).result = .error f) :
    ∃ path, AtMostTagged (x.response.setFilename path) (m.serve s x).exchange.response := by
  rcases Resolve.finds_or_endsInDirectory_or_misses s.tree m.options (m.enterHome x).1
    (m.enterHome x).2.request with
    ⟨pre, base, rest, name, hfinds⟩ | ⟨pre, left, hdir⟩ | ⟨pre, base, rest, hmiss⟩
  · rw [serve_of_finds hm hfinds] at h ⊢
    refine ⟨(m.enterHome x).1 ++ (pre.flatten ++ name), ?_⟩
    rw [← response_moved m x _ rest]
    exact StaticFile.atMostTagged_of_serve_error h
  · rw [serve_of_endsInDirectory hm hdir] at h ⊢
    refine ⟨(m.enterHome x).1 ++ (pre.flatten ++ (left.take 1).flatten), ?_⟩
    rw [← response_moved m x _ (left.drop 1)]
    cases hmethod : x.request.method with
    | get | head =>
      simp only [hmethod] at h ⊢
      rw [response_serveDirectory_of_error h]
      exact .inl rfl
    | post => exact .inl rfl
    | options =>
      rw [hmethod] at h
      cases h
  · rw [(serve_of_misses hm hmiss).2]
    exact ⟨_, .inl rfl⟩

/-- **Reports of failures.** When a bare mount fails to answer a request, it leaves the status and
the body of a new response and no field but the tag of a file. The report that is made from what it
leaves is the report of the failure alone, but for the local path, which is no part of what is
sent. -/
theorem report_of_error (hm : m.Bare) {r : Request}
    (h : (m.serve s { request := r }).result = .error f) :
    let response := (m.serve s { request := r }).exchange.response
    response.status = 200 ∧ response.body = .empty ∧
      (response.fields = [] ∨ ∃ item, response.fields = [(("ETag" : Text), StaticFile.tag item)]) ∧
      response.setFailure f = { Response.ofFailure f with filename := response.filename } := by
  obtain ⟨path, hleft⟩ := exists_atMostTagged_of_error hm h
  have hreport := (hleft.setFailure_eq f).trans (Response.setFailure_setFilename _ path f)
  rcases hleft with hleft | ⟨item, hleft⟩
  · rw [hleft] at hreport ⊢
    exact ⟨rfl, rfl, .inl rfl, hreport⟩
  · rw [hleft] at hreport ⊢
    exact ⟨rfl, rfl, .inr ⟨item, rfl⟩, hreport⟩

/-- A mount of the root directory. -/
def topMount : Mount := { root := "/", options := {} }

/-- A request for bytes behind the end of a file. -/
def pastRequest : Request := (Request.new .get "/hello.txt").withField "Range" "bytes=9-"

/-- A request for a file. -/
def plainRequest : Request := Request.new .get "/www/x"

theorem report_of_error_afterTag :
    (let answer := topMount.serve StaticFile.helloSetting { request := pastRequest }
    let response := answer.exchange.response
    response.field? "ETag" = some ("\"0-5-0\"" : Text) ∧
      response.setFailure (.rangeNotSatisfiable 5) =
        { Response.ofFailure (.rangeNotSatisfiable 5) with filename := response.filename }) ∧
    let answer := topMount.serve StaticFile.lockedSetting { request := plainRequest }
    let response := answer.exchange.response
    response.field? "ETag" = some ("\"2-0-0\"" : Text) ∧
      response.setFailure (.inaccessible "/www/x") =
        { Response.ofFailure (.inaccessible "/www/x") with filename := response.filename } := by
  have hm : topMount.Bare := ⟨⟨rfl, rfl, rfl⟩, rfl, rfl⟩
  have hranges : (topMount.serve StaticFile.helloSetting { request := pastRequest }).result =
      .error (.rangeNotSatisfiable 5) := by
    decide +kernel
  have hopened : (topMount.serve StaticFile.lockedSetting { request := plainRequest }).result =
      .error (.inaccessible "/www/x") := by
    decide +kernel
  exact ⟨⟨by decide +kernel, (report_of_error hm hranges).2.2.2⟩, by decide +kernel,
    (report_of_error hm hopened).2.2.2⟩

end Mount

end Webroot
