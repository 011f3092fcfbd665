import Webroot.Proofs.Http.Suffixes
import Webroot.Proofs.Mount.DescribedAnswer

/-!
# The type of a file in several languages

A file that comes in several languages has one name and a **language tag** behind it for each of
them, as in `page.html.en-us`. The type of such a variant is looked up like that of any name: by the
word after the last dot first. A tag with hyphens is no word, and the word before it decides, which
gives the variant the type of its base. A tag without hyphens is a word, and most such words are no
known suffix; but some are, and `page.html.ps` is taken for PostScript although it may be in Pashto.

So the type of a variant is the type of its base unless the tag names another type
(`mediaType_append`), and plain files are sent as what their name says (`StaticFile.sendsAs_serve`).

Main statement: `StaticFile.mediaType_variant`.
-/

namespace Webroot

open Http Text

/-! ### Language tags -/

namespace Http

/-- A language tag: the letters of a language, and then subtags of letters and digits. -/
structure LanguageTag where
  language : Text
  subtags : List Text := []
  letters : ∀ c ∈ language, c.isAlpha = true
  two_le : 2 ≤ language.length
  le_eight : language.length ≤ 8
  alphanumeric : ∀ t ∈ subtags, t ≠ [] ∧ ∀ c ∈ t, c.isAlphanum = true

namespace LanguageTag

/-- A tag as it is written, with a hyphen before each subtag. -/
def text (tag : LanguageTag) : Text := tag.language ++ tag.subtags.flatMap ('-' :: ·)

/-- The media type that a tag names when it is taken for a suffix. -/
def mediaType? (tag : LanguageTag) : Option Text :=
  if tag.subtags = [] then mediaTypes.lookup (lower tag.language) else none

end LanguageTag

/-- Letters and digits of ASCII are word characters. -/
theorem isWordChar_of_ascii {c : Char} (h : c.isAlphanum = true) : isWordChar c = true := by
  have hascii : c.toNat < 0x80 := by
    simp only [Char.isAlphanum, Char.isAlpha, Char.isUpper, Char.isLower, Char.isDigit,
      Bool.or_eq_true, Bool.and_eq_true, decide_eq_true_eq, UInt32.le_iff_toNat_le, ge_iff_le] at h
    have hcode : c.toNat = c.val.toNat := rfl
    have hcapital : 'Z'.val.toNat = 90 := rfl
    have hsmall : 'z'.val.toNat = 122 := rfl
    have hdigit : '9'.val.toNat = 57 := rfl
    omega
  exact isWordChar_of_isAlphanum hascii h

namespace LanguageTag

variable (tag : LanguageTag)

/-- The language of a tag is a word. -/
theorem madeOf_language : MadeOf isWordChar tag.language := by
  refine ⟨?_, fun c hc => ?_⟩
  · intro hnil
    have htwo := tag.two_le
    rw [hnil] at htwo
    cases htwo
  · refine isWordChar_of_ascii ?_
    rw [Char.isAlphanum, tag.letters c hc, Bool.true_or]

/-- A tag may stand after the last dot of a name with a secondary suffix. -/
theorem madeOf_text : MadeOf isTagChar tag.text := by
  refine ⟨?_, fun c hc => ?_⟩
  · intro hnil
    exact tag.madeOf_language.ne_nil (List.append_eq_nil_iff.mp hnil).1
  · rcases List.mem_append.mp hc with hc | hc
    · exact isTagChar_of_isWordChar (tag.madeOf_language.all c hc)
    · obtain ⟨t, ht, hc⟩ := List.mem_flatMap.mp hc
      rcases List.mem_cons.mp hc with rfl | hc
      · rfl
      · exact isTagChar_of_isWordChar (isWordChar_of_ascii ((tag.alphanumeric t ht).2 c hc))

/-- A tag is a suffix when it has no hyphen. -/
theorem primarySuffix?_append_text (base : Text) :
    primarySuffix? (base ++ '.' :: tag.text) =
      if tag.subtags = [] then some (lower tag.language) else none := by
  by_cases hnone : tag.subtags = []
  · have htext : tag.text = tag.language := by rw [text, hnone, List.flatMap_nil, List.append_nil]
    rw [if_pos hnone, htext, primarySuffix?_append base tag.madeOf_language]
  · obtain ⟨t, ts, hcons⟩ := List.exists_cons_of_ne_nil hnone
    have hhyphen : '-' ∈ tag.text := by
      rw [text, hcons, List.flatMap_cons]
      exact List.mem_append_right _ List.mem_cons_self
    rw [if_neg hnone]
    exact primarySuffix?_eq_none (tag.madeOf_text.not_mem isTagChar_dot) hhyphen (by decide)

end LanguageTag

/-! ### The type of a variant -/

/-- The type of a name is that of its primary suffix, if that is known. -/
theorem mediaType_of_primarySuffix {name s mime : Text} (hs : primarySuffix? name = some s)
    (hmime : mediaTypes.lookup s = some mime) : mediaType name = mime := by
  rw [mediaType, findSome?_suffixes, hs, Option.bind_some, hmime]
  rfl

/-- The type of a variant is the one that its tag names, or else the one of its base. -/
theorem mediaType_append {base s mime : Text} (hs : primarySuffix? base = some s)
    (hmime : mediaTypes.lookup s = some mime) (tag : LanguageTag) :
    mediaType (base ++ '.' :: tag.text) = tag.mediaType?.getD mime := by
  have htag : ((primarySuffix? (base ++ '.' :: tag.text)).bind fun w => mediaTypes.lookup w) =
      tag.mediaType? := by
    rw [tag.primarySuffix?_append_text, LanguageTag.mediaType?]
    split_ifs <;> rfl
  have hbase : ((secondarySuffix? (base ++ '.' :: tag.text)).bind fun w => mediaTypes.lookup w) =
      some mime := by
    rw [secondarySuffix?_append hs tag.madeOf_text, Option.bind_some, hmime]
  rw [mediaType, findSome?_suffixes, htag, hbase]
  cases tag.mediaType? <;> rfl

/-- A path ends in the primary suffix of its last name. -/
theorem primarySuffix?_append_left (dir : Text) {name s : Text}
    (hs : primarySuffix? name = some s) : primarySuffix? (dir ++ name) = some s := by
  obtain ⟨before, w, rfl, hw, rfl⟩ := primarySuffix?_eq_some_iff.mp hs
  rw [← List.append_assoc]
  exact primarySuffix?_append (dir ++ before) hw

end Http

/-! ### What is sent of a file -/

/-- A response **sends as** a type what it sends: its field says so, or, when it has several parts,
the head of each of them does. -/
def Http.Response.SendsAs (mime : Text) (r : Response) : Prop :=
  match r.body with
  | .multipart _ parts _ =>
    ∃ boundary size, ∀ p ∈ parts, ∃ span,
      p.head = Utf8.encode (Ranges.partHead boundary mime span size)
  | _ => r.field? "Content-Type" = some mime

/-- A response without parts sends as the type in its field. -/
theorem Http.Response.sendsAs_of_field {mime : Text} {r : Response}
    (htype : r.field? "Content-Type" = some mime)
    (hbody : ∀ source parts closing, r.body ≠ .multipart source parts closing) :
    r.SendsAs mime := by
  rw [SendsAs]
  split
  · rename_i source parts closing hparts
    exact absurd hparts (hbody source parts closing)
  · exact htype

variable {s : Setting} {request : Request} {response : Response} {path mime : Text} {size : Nat}
  {o : Outcome}

namespace Ranges

variable {source : Source} {span : Span} {body : Body}

theorem contentType_setSpan :
    (setSpan response mime span size body).field? "Content-Type" = some mime := by
  rw [setSpan, Response.field?_setBody, Response.field?_setField_of_ne (by decide),
    Response.field?_setField_of_ne (by decide), Response.field?_setField]

theorem sendsAs_single {spec : RangeSpec}
    (h : (single source path mime size spec response).result = .ok o) :
    (single source path mime size spec response).response.SendsAs mime := by
  obtain ⟨f, hreply⟩ | ⟨span, body, -, hbody, hreply⟩ :=
    single_cases source path mime size spec response
  · rw [hreply] at h
    cases h
  · rw [hreply]
    exact Response.sendsAs_of_field contentType_setSpan (ne_multipart_of_spanBody hbody)

theorem sendsAs_several {specs : List RangeSpec}
    (h : (several s source mime size specs response).result = .ok o) :
    (several s source mime size specs response).response.SendsAs mime := by
  obtain ⟨f, hreply⟩ | ⟨spans, length, -, hreply⟩ :=
    several_cases s source mime size specs response
  · rw [hreply] at h
    cases h
  · rw [hreply]
    refine ⟨s.boundary, size, fun p hp => ?_⟩
    obtain ⟨span, -, rfl⟩ := List.mem_map.mp hp
    exact ⟨span, rfl⟩

end Ranges

theorem sendsAs_serveRanges
    (h : (serveRanges s request response path size mime).result = .ok o) :
    (serveRanges s request response path size mime).response.SendsAs mime := by
  obtain ⟨f, hreply⟩ | ⟨source, spec, hreply⟩ | ⟨source, specs, hreply⟩ :=
    serveRanges_cases s request response path size mime
  · rw [hreply] at h
    cases h
  · rw [hreply] at h ⊢
    exact Ranges.sendsAs_single h
  · rw [hreply] at h ⊢
    exact Ranges.sendsAs_several h

namespace StaticFile

theorem contentType_setFile (response : Response) (item : Item) (source : Source) (mime : Text) :
    (setFile response item source mime).field? "Content-Type" = some mime := by
  rw [setFile, Response.field?_setBody, Response.field?_setField_of_ne (by decide),
    Response.field?_setField_of_ne (by decide), Response.field?_setField]

/-- The content of a plain file is sent as the type of its name. -/
theorem sendsAs_serve (hmethod : request.method = .get ∨ request.method = .head)
    (h : (serve s request response path).result = .ok o) (hsends : o ≠ .notModified) :
    (serve s request response path).response.SendsAs (mediaType path) := by
  rw [serve_eq_get hmethod] at h ⊢
  obtain ⟨e, -, hreply⟩ | ⟨item, -, hreply | hreply | ⟨e, -, hreply⟩ | ⟨source, -, hreply⟩⟩ :=
    get_cases s request response path
  · rw [hreply] at h
    cases h
  · rw [hreply] at h
    exact absurd (Except.ok.inj h).symm hsends
  · rw [hreply] at h ⊢
    exact sendsAs_serveRanges h
  · rw [hreply] at h
    cases h
  · rw [hreply]
    exact Response.sendsAs_of_field (contentType_setFile _ _ _ _) fun _ _ _ => Body.noConfusion

/-- **The type of a variant.** A file whose name ends in a known suffix is of the type of that
suffix. With a language tag behind its name it stays of that type, unless the tag is a single word
that is itself a known suffix of another type, which then is the type of the variant. Whatever is
sent of the variant is sent as that type. So the choice among the languages of a mount does not
change the type when no tag among them names another one. -/
theorem mediaType_variant {base suffix mime : Text} (hs : primarySuffix? base = some suffix)
    (hmime : mediaTypes.lookup suffix = some mime) :
    mediaType base = mime ∧
    (∀ tag : LanguageTag,
      mediaType (base ++ '.' :: tag.text) = tag.mediaType?.getD mime ∧
      (mediaType (base ++ '.' :: tag.text) = mediaType base ↔
        ∀ other ∈ tag.mediaType?, other = mime) ∧
      ∀ (s : Setting) (request : Request) (response : Response) (o : Outcome),
        request.method = .get ∨ request.method = .head →
        (serve s request response (base ++ '.' :: tag.text)).result = .ok o → o ≠ .notModified →
        (serve s request response (base ++ '.' :: tag.text)).response.SendsAs
          (tag.mediaType?.getD mime)) ∧
    ∀ (t : FileTree) (dir : Text) (tags : List LanguageTag) (name : Text),
      Resolve.searchFile t dir base (tags.map LanguageTag.text) = some name →
      (∀ tag ∈ tags, ∀ other ∈ tag.mediaType?, other = mime) →
      mediaType (dir ++ name) = mime := by
  have hbase : mediaType base = mime := mediaType_of_primarySuffix hs hmime
  refine ⟨hbase, fun tag => ⟨mediaType_append hs hmime tag, ?_, ?_⟩, ?_⟩
  · rw [mediaType_append hs hmime tag, hbase]
    cases tag.mediaType? <;> simp
  · intro s request response o hmethod hserve hsends
    rw [← mediaType_append hs hmime tag]
    exact sendsAs_serve hmethod hserve hsends
  · intro t dir tags name hname htags
    have hdir : primarySuffix? (dir ++ base) = some suffix := primarySuffix?_append_left dir hs
    rcases List.mem_cons.mp (List.mem_of_find?_eq_some hname) with rfl | hvariant
    · exact mediaType_of_primarySuffix hdir hmime
    · obtain ⟨l, hl, rfl⟩ := List.mem_map.mp hvariant
      obtain ⟨tag, htag, rfl⟩ := List.mem_map.mp hl
      rw [← List.append_assoc, mediaType_append hdir hmime tag]
      cases hother : tag.mediaType? with
      | none => rfl
      | some other => exact htags tag htag other hother

/-- American English, as a tag with a hyphen. -/
def americanEnglish : LanguageTag where
  language := "en"
  subtags := ["US"]
  letters := List.all_eq_true.mp (by decide)
  two_le := by decide
  le_eight := by decide
  alphanumeric := List.forall_mem_singleton.mpr ⟨by decide, List.all_eq_true.mp (by decide)⟩

/-- Pashto, the tag of which is the suffix of PostScript. -/
def pashto : LanguageTag where
  language := "ps"
  letters := List.all_eq_true.mp (by decide)
  two_le := by decide
  le_eight := by decide
  alphanumeric := List.forall_mem_nil _

theorem mediaType_variant_page :
    primarySuffix? "/www/page.html" = some "html".toList ∧
      mediaTypes.lookup "html".toList = some "text/html".toList ∧
      mediaType "/www/page.html.en-US" = "text/html" ∧
      mediaType "/www/page.html.ps" = "application/postscript" ∧
      mediaType "/www/page.html.ps" ≠ mediaType "/www/page.html" := by
  have hs : primarySuffix? "/www/page.html" = some "html".toList := by decide +kernel
  have hmime : mediaTypes.lookup "html".toList = some "text/html".toList := by decide +kernel
  obtain ⟨-, htags, -⟩ := mediaType_variant hs hmime
  obtain ⟨hEnglish, -, -⟩ := htags americanEnglish
  obtain ⟨hPashto, hsame, -⟩ := htags pashto
  have hother : "application/postscript".toList ∈ pashto.mediaType? := by decide +kernel
  exact ⟨hs, hmime, hEnglish, hPashto.trans (by decide +kernel),
    fun h => absurd (hsame.mp h _ hother) (by decide)⟩

/-- Not every tag leaves a file its type. -/
theorem not_forall_mediaType_append :
    ¬∀ (base suffix : Text) (tag : LanguageTag), primarySuffix? base = some suffix →
      (mediaTypes.lookup suffix).isSome = true →
      mediaType (base ++ '.' :: tag.text) = mediaType base := by
  intro h
  have hsame := h "index.html" "html" pashto (by decide +kernel) (by decide +kernel)
  exact absurd hsame (by decide +kernel)

end StaticFile

end Webroot
