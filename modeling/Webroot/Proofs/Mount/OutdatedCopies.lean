import Webroot.Proofs.Mount.ResumedDownload
import Webroot.Proofs.Mount.Revalidation

/-!
# Outdated copies

A client that names with If-None-Match nothing but tags of other versions says that its copy is
outdated. Such a list never makes the copy good (`ifNoneMatchHolds_of_outdated`). A date may: dates
are looked at before tags, and a date that is not before the second of the last change is enough,
whatever tags stand beside it. With an older date, or with none, the client is sent the file as it
is now, as if it had said nothing of a copy.

Main statements: `StaticFile.serve_of_outdated`, and `StaticFile.not_forall_current` for the client
whose list is overruled by its date.
-/

namespace Webroot

open Http Text

/-! ### What the fields say of the copy -/

/-- A value **names outdated versions only** when it lists quoted strings other than the tag of the
file. -/
def Http.NamesOutdated (value tag : Text) : Prop :=
  ∃ tags, Lists value tags ∧ (∀ t ∈ tags, QuotedString t) ∧ tag ∉ tags

/-- Tags of other versions do not make the copy good, and no quoted string is the star that stands
for all versions. -/
theorem Http.ifNoneMatchHolds_of_outdated {value tag : Text} (h : NamesOutdated value tag) :
    ifNoneMatchHolds value tag = false := by
  obtain ⟨tags, hlists, hquoted, htag⟩ := h
  have hstar : ['*'] ∉ tags := by
    intro hmem
    obtain ⟨u, hu, -⟩ := hquoted _ hmem
    exact absurd (List.cons.inj hu).1 (by decide)
  rw [ifNoneMatchHolds, listElements_of_lists hlists hquoted, List.any_eq_false]
  intro t ht hholds
  rcases of_decide_eq_true hholds with rfl | rfl
  · exact htag ht
  · exact hstar ht

/-- A date makes the copy good when it is not before the second of the last change. -/
theorem Http.ifModifiedSinceHolds_iff {value : Text} {changed : Int} :
    ifModifiedSinceHolds value changed = true ↔
      ∃ date, HttpDate.read? value = some date ∧ changed ≤ date.seconds := by
  rw [ifModifiedSinceHolds]
  cases hdate : HttpDate.read? value with
  | none => simp
  | some date => simp [notBefore]

namespace Http.Request

variable {r : Request} {value tag : Text}

/-- The request without what it says of a copy in its If-None-Match and If-Modified-Since fields. -/
def withoutCopy (r : Request) : Request :=
  (r.withoutField "if-none-match").withoutField "if-modified-since"

theorem unconditional_withoutCopy (hifRange : r.field? "if-range" = none) :
    r.withoutCopy.Unconditional := by
  constructor
  · rw [withoutCopy, field?_withoutField_of_ne (by decide), field?_withoutField_of_ne (by decide),
      hifRange]
  · exact field?_withoutField _ _
  · rw [withoutCopy, field?_withoutField_of_ne (by decide), field?_withoutField]

theorem range_withoutCopy (r : Request) : r.withoutCopy.field? "range" = r.field? "range" := by
  rw [withoutCopy, field?_withoutField_of_ne (by decide), field?_withoutField_of_ne (by decide)]

/-- A request that names outdated versions only says by its date alone whether its copy is good. -/
theorem notModified_of_outdated (hifRange : r.field? "if-range" = none)
    (hmatch : r.field? "if-none-match" = some value) (houtdated : NamesOutdated value tag)
    (changed : Int) :
    r.notModified changed tag =
      (r.field? "if-modified-since").any (ifModifiedSinceHolds · changed) := by
  rw [notModified, hifRange, hmatch, Option.any_some, ifNoneMatchHolds_of_outdated houtdated,
    Option.any_none, Bool.false_or, Bool.or_false]

end Http.Request

/-! ### The answer -/

namespace StaticFile

variable {s : Setting} {request : Request} {response : Response} {path : Text} {item : Item}
  {content : Octets}

/-- A request whose copy is not good is answered as if it had said nothing of a copy. -/
theorem get_withoutCopy (hitem : s.tree.stat path = .ok item)
    (hifRange : request.field? "if-range" = none)
    (hgood : request.notModified item.modified.seconds (tag item) = false) :
    get s request response path = get s request.withoutCopy response path := by
  have hpath : request.withoutCopy.path = request.path := rfl
  have hcopy : request.withoutCopy.notModified item.modified.seconds (tag item) =
      request.notModified item.modified.seconds (tag item) := by
    rw [hgood, (Request.unconditional_withoutCopy hifRange).notModified]
  exact (get_congr hitem hpath (Request.range_withoutCopy request) hcopy response).symm

/-- **Outdated copies.** A request that names outdated versions only, and says nothing with
If-Range, is told that its copy is still good exactly when it sends a date that is not before the
second of the last change. In all other cases the answer is the one to the request without what it
says of a copy; if it asks for no ranges, that is the whole file as it is now. -/
theorem serve_of_outdated (hitem : s.tree.stat path = .ok item) (hnode : item.node = .file content)
    (hmethod : request.method = .get) (hifRange : request.field? "if-range" = none) {value : Text}
    (hmatch : request.field? "if-none-match" = some value)
    (houtdated : NamesOutdated value (tag item)) (response : Response) :
    let reply := serve s request response path
    (reply.result = .ok .notModified ↔
      ∃ since date, request.field? "if-modified-since" = some since ∧
        HttpDate.read? since = some date ∧ item.modified.seconds ≤ date.seconds) ∧
    (reply.result ≠ .ok .notModified →
      reply = serve s request.withoutCopy response path ∧
        (request.field? "range" = none →
          reply.result = .ok .ok ∧ reply.response.status = 200 ∧
            reply.response.body.send = .ofBytes content)) := by
  intro reply
  have hreply : reply = get s request response path := serve_eq_get (.inl hmethod)
  have hfresh := Request.unconditional_withoutCopy hifRange
  have hiff : (get s request response path).result = .ok .notModified ↔
      request.notModified item.modified.seconds (tag item) = true := get_notModified_iff hitem
  constructor
  · rw [hreply, hiff, Request.notModified_of_outdated hifRange hmatch houtdated,
      Option.any_eq_true]
    simp only [ifModifiedSinceHolds_iff]
    constructor
    · rintro ⟨since, hsince, date, hdate, hle⟩
      exact ⟨since, date, hsince, hdate, hle⟩
    · rintro ⟨since, date, hsince, hdate, hle⟩
      exact ⟨since, hsince, date, hdate, hle⟩
  · intro hnot
    rw [hreply, ne_eq, hiff, Bool.not_eq_true] at hnot
    have hsame : reply = get s request.withoutCopy response path :=
      hreply.trans (get_withoutCopy hitem hifRange hnot)
    have hmethod' : request.withoutCopy.method = .get := hmethod
    refine ⟨hsame.trans (serve_eq_get (.inl hmethod')).symm, fun hrange => ?_⟩
    rw [← Request.range_withoutCopy] at hrange
    rw [hsame, get_of_unconditional hitem (Source.ofItem_of_file hnode) hfresh hrange]
    exact ⟨rfl, rfl, send_setFile hnode _ _⟩

/-- A request with the tags of two other versions and a date before the last change. -/
def outdatedRequest : Request :=
  ((Request.new .get "/hello.txt").withField "If-None-Match" "\"0-4-0\" ,\"x\"").withField
    "If-Modified-Since" "Wed, 31 Dec 1969 23:59:59 GMT"

theorem serve_of_outdated_outdatedRequest :
    (serve helloSetting outdatedRequest {} "/hello.txt").result = .ok .ok := by
  have houtdated : NamesOutdated "\"0-4-0\" ,\"x\""
      (tag { node := .file (Utf8.encode "hello"), serial := 0, modified := ⟨0, 0⟩ }) := by
    have hvalue : ("\"0-4-0\" ,\"x\"" : Text) =
        [] ++ (("\"0-4-0\"" : Text) ++ [' ']) ++ ',' :: ([] ++ (("\"x\"" : Text) ++ [])) := by
      decide
    refine ⟨["\"0-4-0\"", "\"x\""], ?_, ?_, by decide +kernel⟩
    · rw [hvalue]
      exact .more (by simp) (List.all_eq_true.mp (by decide)) (.last (by simp) (by simp))
    · rw [List.forall_mem_cons, List.forall_mem_singleton]
      exact ⟨⟨"0-4-0", by decide, by decide, by decide, by decide⟩,
        ⟨"x", by decide, by decide, by decide, by decide⟩⟩
  obtain ⟨-, hcurrent⟩ := serve_of_outdated stat_helloSetting rfl rfl
    (by decide +kernel : outdatedRequest.field? "if-range" = none) (by decide +kernel) houtdated {}
  have hnot : (serve helloSetting outdatedRequest {} "/hello.txt").result ≠ .ok .notModified := by
    decide +kernel
  exact ((hcurrent hnot).2 (by decide +kernel)).1

/-- A request with the tag of another version and the date of the last change. -/
def datedRequest : Request :=
  ((Request.new .get "/hello.txt").withField "If-None-Match" "\"x\"").withField
    "If-Modified-Since" "Thu, 01 Jan 1970 00:00:00 GMT"

/-- A client that names outdated versions only may still be told that its copy is good. -/
theorem not_forall_current :
    ¬ ∀ (s : Setting) (request : Request) (response : Response) (path : Text) (item : Item)
        (content : Octets) (value : Text),
      s.tree.stat path = .ok item → item.node = .file content → request.method = .get →
        request.field? "if-range" = none → request.field? "if-none-match" = some value →
          NamesOutdated value (tag item) →
            (serve s request response path).result ≠ .ok .notModified := by
  intro h
  have houtdated : NamesOutdated "\"x\""
      (tag { node := .file (Utf8.encode "hello"), serial := 0, modified := ⟨0, 0⟩ }) := by
    have hvalue : ("\"x\"" : Text) = [] ++ (("\"x\"" : Text) ++ []) := by decide
    refine ⟨["\"x\""], ?_, ?_, by decide +kernel⟩
    · rw [hvalue]
      exact .last (by simp) (by simp)
    · rw [List.forall_mem_singleton]
      exact ⟨"x", by decide, by decide, by decide, by decide⟩
  exact h helloSetting datedRequest {} "/hello.txt" _ _ _ stat_helloSetting rfl rfl
    (by decide +kernel) (by decide +kernel) houtdated (by decide +kernel)

end StaticFile

end Webroot
