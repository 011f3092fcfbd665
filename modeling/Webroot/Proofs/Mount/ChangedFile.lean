import Webroot.Proofs.Mount.ResumedDownload
import Webroot.Proofs.Mount.Revalidation

/-!
# Files that have changed

A client holds the tag of an earlier state of a file and sends it with If-None-Match. It is sent the
file again when the tag is another one by then. A tag is made of the serial number, which a file
keeps, of the size, and of the second of the last change. So a change **shows** when it changes the
size or that second, be it before or after the start of 1970. A change that keeps the size and falls
into the same second as the one before it leaves the tag as it was, however many nanoseconds lie
between the two.

Main statements: `StaticFile.retagged_iff_changeShows`, and `StaticFile.not_forall_retagged` for a
file that is written twice in one second.
-/

namespace Webroot

open Http Text

/-- Two items are states of **one file** when they have the same serial number. The seconds of their
last changes fit in 64-bit words, as the times of files do. -/
structure OneFile (earlier later : Item) : Prop where
  serial : earlier.serial = later.serial
  fits : -0x8000000000000000 ≤ earlier.modified.seconds ∧
    earlier.modified.seconds < 0x8000000000000000
  fits' : -0x8000000000000000 ≤ later.modified.seconds ∧
    later.modified.seconds < 0x8000000000000000

/-- A change **shows** when the size differs, or the second of the last change. -/
def ChangeShows (earlier later : Item) : Prop :=
  earlier.size ≠ later.size ∨ earlier.modified.seconds ≠ later.modified.seconds

instance (earlier later : Item) : Decidable (ChangeShows earlier later) :=
  inferInstanceAs (Decidable (_ ∨ _))

/-- A request **sends a tag** when all that it says of a copy is this tag, with If-None-Match. -/
structure Http.Request.SendsTag (request : Request) (tag : Text) : Prop where
  ifNoneMatch : request.field? "if-none-match" = some tag
  ifRange : request.field? "if-range" = none
  ifModifiedSince : request.field? "if-modified-since" = none

namespace StaticFile

variable {earlier later : Item}

/-- The tags of two states of a file are different exactly when the change between them shows. -/
theorem tag_ne_iff (hfile : OneFile earlier later) :
    tag earlier ≠ tag later ↔ ChangeShows earlier later := by
  rw [ChangeShows, ← not_and_or, ne_eq, not_iff_not, tag, tag, entityTag_inj hfile.fits hfile.fits']
  exact and_iff_right hfile.serial

/-- The copy that a request sends the tag of is good exactly when the file has this tag. -/
theorem notModified_of_sendsTag {request : Request} (hsends : request.SendsTag (tag earlier)) :
    request.notModified later.modified.seconds (tag later) = true ↔ tag earlier = tag later := by
  -- a value that is a single tag is a list of this tag
  have hlists : Lists (tag earlier) [tag earlier] := by
    have hlast := Lists.last (a := []) (t := tag earlier) (b := []) (by simp) (by simp)
    rwa [List.append_nil, List.nil_append] at hlast
  have hquoted : ∀ t ∈ [tag earlier], QuotedString t := by
    rw [List.forall_mem_singleton]
    exact quotedString_entityTag _ _ _
  have hstar : tag earlier ≠ ['*'] := by
    rw [tag, entityTag_eq]
    exact fun h => absurd (List.cons.inj h).1 (by decide)
  rw [Request.notModified, hsends.ifRange, hsends.ifModifiedSince, hsends.ifNoneMatch,
    Option.any_some, ifNoneMatchHolds, listElements_of_lists hlists hquoted]
  simp [hstar]

/-- **Changed files.** For two states of one file, the tags are different exactly when the change
shows. So a request that sends the tag of the earlier state, and says nothing else of a copy, is
told that its copy is still good exactly when the change does not show. -/
theorem retagged_iff_changeShows (hfile : OneFile earlier later) :
    (tag earlier ≠ tag later ↔ ChangeShows earlier later) ∧
      ∀ (s : Setting) (request : Request) (response : Response) (path : Text),
        s.tree.stat path = .ok later → request.method = .get →
          request.SendsTag (tag earlier) →
            ((serve s request response path).result = .ok .notModified ↔
              ¬ChangeShows earlier later) := by
  refine ⟨tag_ne_iff hfile, fun s request response path hlater hmethod hsends => ?_⟩
  rw [serve_eq_get (.inl hmethod), get_notModified_iff hlater, notModified_of_sendsTag hsends,
    ← tag_ne_iff hfile, ne_eq, not_not]

/-- The file of `helloSetting`, written at the start of 1970. -/
def helloItem : Item := { node := .file (Utf8.encode "hello"), serial := 0, modified := ⟨0, 0⟩ }

/-- The same bytes, written a nanosecond before. -/
def justBefore : Item := { helloItem with modified := ⟨-1, 999999999⟩ }

/-- A request that sends the tag of an item. -/
def tagRequest (item : Item) : Request :=
  (Request.new .get "/hello.txt").withField "If-None-Match" (tag item)

theorem retagged_iff_changeShows_justBefore :
    OneFile justBefore helloItem ∧ tag justBefore ≠ tag helloItem ∧
      (serve helloSetting (tagRequest justBefore) {} "/hello.txt").result ≠ .ok .notModified := by
  have hfile : OneFile justBefore helloItem := ⟨rfl, by decide, by decide⟩
  have hshows : ChangeShows justBefore helloItem := .inr (by decide)
  have hsends : (tagRequest justBefore).SendsTag (tag justBefore) := by
    constructor <;> decide +kernel
  obtain ⟨htag, hserve⟩ := retagged_iff_changeShows hfile
  refine ⟨hfile, htag.mpr hshows, fun h => ?_⟩
  exact (hserve _ _ _ _ stat_helloSetting rfl hsends).mp h hshows

/-- Other bytes of the same number, written half a second after the file of `helloSetting`. -/
def halfSecondLater : Item :=
  { node := .file (Utf8.encode "HELLO"), serial := 0, modified := ⟨0, 500000000⟩ }

/-- A file tree with these bytes. -/
def rewrittenSetting : Setting :=
  { tree := .ofFiles ⟨0, 500000000⟩ [("/hello.txt", Utf8.encode "HELLO")]
    now := ⟨1, 0⟩, process := 1 }

/-- A file that is written twice in one second may keep its tag, and a client that has its first
state is then told that its copy is still good. -/
theorem not_forall_retagged :
    (¬∀ earlier later : Item, OneFile earlier later →
      earlier.size ≠ later.size ∨ earlier.modified ≠ later.modified →
        tag earlier ≠ tag later) ∧
    ¬∀ (earlier later : Item) (s : Setting) (request : Request) (response : Response)
        (path : Text), OneFile earlier later →
      earlier.size ≠ later.size ∨ earlier.modified ≠ later.modified →
        s.tree.stat path = .ok later → request.method = .get → request.SendsTag (tag earlier) →
          (serve s request response path).result ≠ .ok .notModified := by
  have hfile : OneFile helloItem halfSecondLater := ⟨rfl, by decide, by decide⟩
  have hmodified : helloItem.modified ≠ halfSecondLater.modified := by decide
  have hstat : rewrittenSetting.tree.stat "/hello.txt" = .ok halfSecondLater := by decide +kernel
  have hsends : (tagRequest helloItem).SendsTag (tag helloItem) := by
    constructor <;> decide +kernel
  refine ⟨fun h => h _ _ hfile (.inr hmodified) (by decide +kernel), fun h => ?_⟩
  exact h _ _ _ _ {} _ hfile (.inr hmodified) hstat rfl hsends (by decide +kernel)

end StaticFile

end Webroot
