import Webroot.Proofs.Http.EntityTag
import Webroot.Proofs.Http.FieldList
import Webroot.Proofs.Http.Fields
import Webroot.Proofs.Http.Head
import Webroot.Proofs.Mount.Outcome
import Webroot.Proofs.Mount.SingleRange

/-!
# Copies looked at again

The answer that sends a whole file carries a tag and a date. Sent back with a later request for the
unchanged file, either of them has the client told that its copy is still good: the date because it
is read back as the second of the last change, the tag because it is an element of the list that the
client sends. A tag stands for a serial number, a size and a second, and no other file's tag is
mistaken for it.

Main statement: `StaticFile.revalidate`.
-/

namespace Webroot

open Http Text

/-! ### Tags and what they are made from -/

/-- What a tag is made from: a serial number, a size, and the second of the last change, which fits
in a 64-bit word. -/
structure Metadata where
  serial : Nat
  size : Nat
  changed : Int
  fits : -0x8000000000000000 ≤ changed ∧ changed < 0x8000000000000000

/-- The tag for metadata. -/
def Metadata.tag (m : Metadata) : Text := entityTag m.serial m.size m.changed

/-- Tags are quoted strings. -/
theorem Http.quotedString_entityTag (serial size : Nat) (changed : Int) :
    QuotedString (entityTag serial size changed) := by
  refine ⟨tagText serial size changed, entityTag_eq serial size changed, ?_,
    not_mem_tagText (by decide) (by decide) _ _ _, not_mem_tagText (by decide) (by decide) _ _ _⟩
  simp [tagText]

/-- A list of tags holds the tag of a file exactly when one of them was made from the same
metadata. -/
theorem Http.ifNoneMatchHolds_iff {value : Text} {ms : List Metadata}
    (h : Lists value (ms.map Metadata.tag)) (serial size : Nat) {changed : Int}
    (hchanged : -0x8000000000000000 ≤ changed ∧ changed < 0x8000000000000000) :
    ifNoneMatchHolds value (entityTag serial size changed) = true ↔
      ∃ m ∈ ms, m.serial = serial ∧ m.size = size ∧ m.changed = changed := by
  have hquoted : ∀ t ∈ ms.map Metadata.tag, QuotedString t := by
    intro t ht
    obtain ⟨m, -, rfl⟩ := List.mem_map.mp ht
    exact quotedString_entityTag _ _ _
  -- a tag starts with a quote, so none of them is the star that stands for all tags
  have hstar : ∀ m : Metadata, m.tag ≠ ['*'] := by
    intro m hm
    rw [Metadata.tag, entityTag_eq] at hm
    exact absurd (List.cons.inj hm).1 (by decide)
  rw [ifNoneMatchHolds, listElements_of_lists h hquoted, List.any_eq_true]
  constructor
  · rintro ⟨t, ht, hsame⟩
    obtain ⟨m, hm, rfl⟩ := List.mem_map.mp ht
    have htag : m.tag = entityTag serial size changed := by simpa [hstar m] using hsame
    exact ⟨m, hm, (entityTag_inj m.fits hchanged).mp htag⟩
  · rintro ⟨m, hm, rfl, rfl, rfl⟩
    exact ⟨m.tag, List.mem_map_of_mem hm, by simp [Metadata.tag]⟩

/-- Seconds in the years from 0 to 9999 fit in a 64-bit word. -/
theorem Instant.fits_of_year {s : Int} (hyear : 0 ≤ (date s).year) (hyear' : (date s).year ≤ 9999) :
    -0x8000000000000000 ≤ s ∧ s < 0x8000000000000000 := by
  obtain ⟨hstart, hnext⟩ := Date.day_bounds_of_year hyear hyear'
  have hfirst : Date.yearStart 0 = 0 := by decide
  have hlast : Date.yearStart (9999 + 1) = 3652425 := by decide
  have hepoch : Date.epoch = 719528 := rfl
  omega

namespace StaticFile

variable {s : Setting} {request : Request} {response : Response} {path : Text} {item : Item}

/-! ### When only the copy is spoken of -/

/-- The answer that the client's copy is still good. -/
def setUnchanged (response : Response) (item : Item) : Response :=
  ((response.setField "ETag" (tag item)).setStatus 304).setBody .empty

/-- A request is answered that the copy is still good exactly when it says so of its copy. -/
theorem get_notModified_iff (hitem : s.tree.stat path = .ok item) :
    (get s request response path).result = .ok .notModified ↔
      request.notModified item.modified.seconds (tag item) = true := by
  simp only [get, hitem]
  split_ifs with hgood hrange
  · simpa using hgood
  · constructor
    · intro h
      cases (serveRanges_outcome h).1
    · intro h
      exact absurd h hgood
  · refine iff_of_false (fun h => ?_) hgood
    cases hsource : Source.ofItem item <;> rw [hsource] at h <;> cases h

theorem response_of_notModified (hitem : s.tree.stat path = .ok item)
    (h : request.notModified item.modified.seconds (tag item) = true) :
    (get s request response path).response = setUnchanged response item := by
  simp only [get, hitem, h]
  rfl

/-! ### What the answer says -/

/-- A tag holds no carriage return. -/
theorem plainField_tag (item : Item) : Multipart.PlainField "ETag" (tag item) := by
  refine ⟨by decide, by decide, ?_⟩
  have htext := not_mem_tagText (c := '\r') (by decide) (by decide)
  rw [tag, entityTag_eq]
  simp [htext]

/-- The head of the answer names no length. -/
theorem contentLength_not_mem_setUnchanged
    (hplain : ∀ f ∈ response.fields, Multipart.PlainField f.1 f.2)
    (hlength : response.field? "Content-Length" = none) (item : Item) (now : Instant) :
    ∀ name ∈ fieldNames ((setUnchanged response item).head now),
      ¬SameLetters name "Content-Length" := by
  have hnone : (setUnchanged response item).field? "Content-Length" = none := by
    rw [setUnchanged, Response.field?_setBody, ← hlength]
    exact Response.field?_setField_of_ne (by decide) response _
  -- no length is added to an answer that has no body
  have hsent : (setUnchanged response item).sentFields =
      (setUnchanged response item).fields := by
    have hbodiless : isBodiless (setUnchanged response item).status = true := rfl
    unfold Response.sentFields
    rw [hbodiless, Bool.not_true, Bool.and_false, if_neg Bool.false_ne_true, List.append_nil]
  rw [Response.fieldNames_head (Response.plainField_putField (plainField_tag item) hplain), hsent]
  intro name hname
  rcases List.mem_append.mp hname with hname | hname
  · obtain ⟨f, hf, rfl⟩ := List.mem_map.mp hname
    intro hsame
    rw [Response.field?, Option.map_eq_none_iff, List.find?_eq_none] at hnone
    exact hnone f hf (decide_eq_true hsame)
  · have hclosing : ∀ n ∈ (["Date", "Server"] : List Text), ¬SameLetters n "Content-Length" := by
      decide
    exact hclosing name hname

/-! ### From one answer to the next request -/

/-- The whole file is sent with its tag and the date of its last change. -/
theorem get_of_unconditional {source : Source} (hitem : s.tree.stat path = .ok item)
    (hsource : Source.ofItem item = .ok source) (hfresh : request.Unconditional)
    (hrange : request.field? "range" = none) :
    get s request response path =
      ⟨.ok .ok, setFile (response.setField "ETag" (tag item)) item source (mediaType path)⟩ := by
  simp only [get, hitem, hfresh.notModified, hrange, hsource]
  rfl

/-- What cannot be opened is a failure once its tag is set. -/
theorem get_of_unopened {e : LookupError} (hitem : s.tree.stat path = .ok item)
    (hsource : Source.ofItem item = .error e) (hfresh : request.Unconditional)
    (hrange : request.field? "range" = none) :
    get s request response path =
      ⟨.error (lookupFailure request.path e), response.setField "ETag" (tag item)⟩ := by
  simp only [get, hitem, hfresh.notModified, hrange, hsource]
  rfl

/-- A directory with a file that nobody may open. -/
def lockedSetting : Setting :=
  { tree := ⟨[([Utf8.encode "www"], { node := .directory, serial := 1, modified := ⟨0, 0⟩ }),
      ([Utf8.encode "www", Utf8.encode "x"],
        { node := .lockedFile, serial := 2, modified := ⟨0, 0⟩ })]⟩
    now := ⟨0, 0⟩
    process := 1 }

/-- What is sent of a whole file are its bytes. -/
theorem send_setFile {content : Octets} (hnode : item.node = .file content) (response : Response)
    (mime : Text) :
    (setFile response item (.content content) mime).body.send = .ofBytes content := by
  have hbody : (setFile response item (.content content) mime).body =
      .file (.content content) 0 item.size := rfl
  simp only [hbody, Body.send, Item.size_of_file hnode, Source.read, List.drop_zero,
    List.take_length]

theorem entityTag_setFile (response : Response) (item : Item) (source : Source) (mime : Text) :
    (setFile (response.setField "ETag" (tag item)) item source mime).field? "ETag" =
      some (tag item) := by
  rw [setFile, Response.field?_setBody, Response.field?_setField_of_ne (by decide),
    Response.field?_setField_of_ne (by decide), Response.field?_setField_of_ne (by decide)]
  exact Response.field?_setField response _ _

theorem lastModified_setFile (response : Response) (item : Item) (source : Source) (mime : Text) :
    (setFile response item source mime).field? "Last-Modified" =
      some (HttpDate.format item.modified.seconds) := by
  rw [setFile, Response.field?_setBody, Response.field?_setField]

/-- **Revalidation.** The answers that send the whole of an unchanged file, which has to be opened
for them, all have the same tag and the same date. A later request that sends the date back, whether
it asks for ranges or not, is told that the copy is still good. One that sends a list of tags is
told so exactly when one of them was made from the serial number, the size and the second of the
last change of the file. What it is told has an empty body, the tag and no length. -/
theorem revalidate {s s' : Setting} (hitem : s.tree.stat path = .ok item)
    (hitem' : s'.tree.stat path = .ok item)
    (hyear : 0 ≤ (Instant.date item.modified.seconds).year)
    (hyear' : (Instant.date item.modified.seconds).year ≤ 9999) :
    ∃ etag date : Text,
      (∀ (source : Source) (request : Request) (response : Response),
        Source.ofItem item = .ok source → request.method = .get →
        request.Unconditional → request.field? "range" = none →
          let reply := serve s request response path
          reply.result = .ok .ok ∧ reply.response.status = 200 ∧
            reply.response.field? "ETag" = some etag ∧
            reply.response.field? "Last-Modified" = some date) ∧
      (∀ (request : Request) (response : Response), request.method = .get →
        request.field? "if-range" = none → request.field? "if-none-match" = none →
          request.field? "if-modified-since" = some date →
            (serve s' request response path).result = .ok .notModified) ∧
      (∀ (request : Request) (response : Response) (value : Text) (ms : List Metadata),
        request.method = .get → request.field? "if-range" = none →
          request.field? "if-modified-since" = none →
            request.field? "if-none-match" = some value → Lists value (ms.map Metadata.tag) →
              ((serve s' request response path).result = .ok .notModified ↔
                ∃ m ∈ ms, m.serial = item.serial ∧ m.size = item.size ∧
                  m.changed = item.modified.seconds)) ∧
      (∀ (request : Request) (response : Response), request.method = .get →
        (serve s' request response path).result = .ok .notModified →
          let answer := (serve s' request response path).response
          answer.status = 304 ∧ answer.body = .empty ∧ answer.field? "ETag" = some etag ∧
            ((∀ f ∈ response.fields, Multipart.PlainField f.1 f.2) →
              response.field? "Content-Length" = none →
                ∀ now, ∀ name ∈ fieldNames (answer.head now),
                  ¬SameLetters name "Content-Length")) := by
  refine ⟨tag item, HttpDate.format item.modified.seconds, ?_, ?_, ?_, ?_⟩
  · intro source request response hsource hmethod hfresh hrange
    rw [serve_eq_get (.inl hmethod), get_of_unconditional hitem hsource hfresh hrange]
    exact ⟨rfl, rfl, entityTag_setFile _ _ _ _, lastModified_setFile _ _ _ _⟩
  · intro request response hmethod hifRange hmatch hsince
    rw [serve_eq_get (.inl hmethod), get_notModified_iff hitem', Request.notModified, hifRange,
      hmatch, hsince, Option.any_some, ifModifiedSinceHolds, HttpDate.read?_format hyear hyear']
    simp [notBefore]
  · intro request response value ms hmethod hifRange hsince hmatch hlists
    rw [serve_eq_get (.inl hmethod), get_notModified_iff hitem', Request.notModified, hifRange,
      hmatch, hsince, ← ifNoneMatchHolds_iff hlists item.serial item.size
        (Instant.fits_of_year hyear hyear')]
    rfl
  · intro request response hmethod hgood
    rw [serve_eq_get (.inl hmethod)] at hgood ⊢
    rw [response_of_notModified hitem' ((get_notModified_iff hitem').mp hgood)]
    refine ⟨rfl, rfl, ?_, fun hplain hlength now =>
      contentLength_not_mem_setUnchanged hplain hlength item now⟩
    rw [setUnchanged, Response.field?_setBody]
    exact Response.field?_setField response _ _

/-- A request that sends back the date of a file and asks for a part of it. -/
def sinceRequest : Request :=
  ((Request.new .get "/hello.txt").withField "If-Modified-Since"
    "Thu, 01 Jan 1970 00:00:00 GMT").withField "Range" "bytes=0-1"

/-- A file of five bytes before the start of 1970. -/
def earlier : Metadata := ⟨0, 5, -1, by decide⟩

/-- The same file a second later. -/
def present : Metadata := ⟨0, 5, 0, by decide⟩

/-- A request that sends a list with the tags of both. -/
def listRequest : Request :=
  (Request.new .get "/hello.txt").withField "If-None-Match" "\"0-5-ffffffffffffffff\" ,\"0-5-0\""

theorem revalidate_helloSetting :
    (serve helloSetting sinceRequest {} "/hello.txt").result = .ok .notModified ∧
      (serve helloSetting listRequest {} "/hello.txt").result = .ok .notModified := by
  have hitem : helloSetting.tree.stat "/hello.txt" =
      .ok { node := .file (Utf8.encode "hello"), serial := 0, modified := ⟨0, 0⟩ } := by
    decide +kernel
  obtain ⟨etag, date, hfirst, hsince, hlist, -⟩ :=
    revalidate hitem hitem (by decide +kernel) (by decide +kernel)
  have hfresh : (Request.new .get "/hello.txt").Unconditional := by
    constructor <;> decide +kernel
  obtain ⟨-, -, -, hdate⟩ := hfirst _ (Request.new .get "/hello.txt") {}
    (Source.ofItem_of_file rfl) rfl hfresh (by decide +kernel)
  have hepoch : (serve helloSetting (Request.new .get "/hello.txt") {}
      "/hello.txt").response.field? "Last-Modified" = some "Thu, 01 Jan 1970 00:00:00 GMT" := by
    decide +kernel
  obtain rfl := Option.some.inj (hdate.symm.trans hepoch)
  refine ⟨hsince sinceRequest {} rfl (by decide +kernel) (by decide +kernel)
    (by decide +kernel), ?_⟩
  have hblank : ∀ c ∈ [' '], isBlank c = true := by
    intro c hc
    rw [List.mem_singleton.mp hc]
    decide
  have hlists : Lists ([] ++ (earlier.tag ++ [' ']) ++ ',' :: ([] ++ (present.tag ++ [])))
      ([earlier, present].map Metadata.tag) :=
    .more (by simp) hblank (.last (by simp) (by simp))
  refine (hlist listRequest {} _ [earlier, present] rfl (by decide +kernel) (by decide +kernel)
    (by decide +kernel) hlists).mpr ⟨present, by simp, rfl, rfl, rfl⟩

end StaticFile

end Webroot
