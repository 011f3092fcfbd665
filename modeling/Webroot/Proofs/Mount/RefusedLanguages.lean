import Webroot.Proofs.Mount.Negotiation

/-!
# Languages with the weight zero

A client **refuses** a language that it lists with no weight but zero. To the search for a file this
weight is one among others: the language is tried after those that are wanted, but before those that
the client does not list at all. So a refused language gives way to a wanted one and to no other.

Main statements: `searchFile_refused_iff`, and `not_forall_refused_given_up` for the client that is
sent a language that it refuses although there is another that it has not listed.
-/

namespace Webroot

open Http

namespace Http

/-- A value **refuses** a language when it lists it with the weight zero and with no other. -/
structure Refuses (value l : Text) : Prop where
  listed : ∃ e ∈ qualityElements value, e.1 = l
  zero : ∀ e ∈ qualityElements value, e.1 = l → e.2 = 0

/-- A value **wants** a language when it lists it with a weight above zero. -/
def Wants (value l : Text) : Prop := ∃ e ∈ qualityElements value, e.1 = l ∧ 0 < e.2

instance (value l : Text) : Decidable (Wants value l) :=
  inferInstanceAs (Decidable (∃ e ∈ qualityElements value, e.1 = l ∧ 0 < e.2))

/-- A language that is listed is wanted or refused. -/
theorem refuses_of_not_wants {value l : Text} {e : Text × Nat} (he : e ∈ qualityElements value)
    (hl : e.1 = l) (h : ¬Wants value l) : Refuses value l :=
  ⟨⟨e, he, hl⟩, fun e he hl => Nat.eq_zero_of_not_pos fun hpos => h ⟨e, he, hl, hpos⟩⟩

end Http

namespace Resolve

variable {t : FileTree} {o : MountOptions} {dir base : Text}

/-! ### The first form -/

/-- What is found for a name is the first of its forms that is a file. -/
theorem exists_isFirst_of_searchFile {acceptable : List Text} {es : List (Text × Nat)} {name : Text}
    (h : searchFile t dir base (languageOrder acceptable (byWeight es)) = some name) :
    ∃ f, IsFirst Form.Before (Form.Offered acceptable es)
        (fun f => t.isFile (dir ++ f.name base) = true) f ∧ f.name base = name := by
  rw [searchFile_eq_find?] at h
  obtain ⟨f, hfind, hname⟩ := Option.map_eq_some_iff.mp h
  exact ⟨f, isFirst_of_find? Form.pairwise_offers (fun _ => Form.mem_offers) hfind, hname⟩

/-- A file in some form is enough for a name to be found. -/
theorem exists_searchFile_of_offered {acceptable : List Text} {es : List (Text × Nat)} {f : Form}
    (hoffered : f.Offered acceptable es) (hfile : t.isFile (dir ++ f.name base) = true) :
    ∃ name, searchFile t dir base (languageOrder acceptable (byWeight es)) = some name := by
  rw [searchFile_eq_find?, ← Option.isSome_iff_exists, Option.isSome_map, List.find?_isSome]
  exact ⟨f, Form.mem_offers.mpr hoffered, hfile⟩

/-- A language tells two variants apart. -/
theorem append_language_inj {k l : Text} (h : base ++ '.' :: k = base ++ '.' :: l) : k = l :=
  (List.cons.inj (List.append_cancel_left h)).2

theorem ne_append_language (base l : Text) : base ≠ base ++ '.' :: l := by
  intro h
  simpa using congrArg List.length h

/-! ### Refused languages -/

variable {r : Request} {value : Text}

theorem languages_eq_byWeight (h : r.field? "accept-language" = some value) :
    languages o r = languageOrder o.acceptableLanguages (byWeight (qualityElements value)) := by
  rw [languages, Request.acceptLanguage_eq_byQuality, h]
  rfl

/-- **Refused languages.** A variant in a refused language is selected exactly when there is such a
variant, but neither the exact file nor a variant in a language of the mount that is wanted. What
there is in languages that are not listed makes no difference. -/
theorem searchFile_refused_iff (hvalue : r.field? "accept-language" = some value) :
    (∃ l, Refuses value l ∧
        searchFile t dir base (languages o r) = some (base ++ '.' :: l)) ↔
      t.isFile (dir ++ base) = false ∧
        (∀ l ∈ o.acceptableLanguages, Wants value l →
          t.isFile (dir ++ (base ++ '.' :: l)) = false) ∧
        ∃ l ∈ o.acceptableLanguages, Refuses value l ∧
          t.isFile (dir ++ (base ++ '.' :: l)) = true := by
  rw [languages_eq_byWeight hvalue]
  constructor
  · rintro ⟨l, hrefuses, hsearch⟩
    obtain ⟨f, hfirst, hname⟩ := exists_isFirst_of_searchFile hsearch
    -- the form is that of a listed language of weight zero, and little is after it
    cases hfirst.offered with
    | itself => exact absurd hname (ne_append_language base l)
    | unlisted _ hnot =>
      obtain rfl := append_language_inj hname
      obtain ⟨e, he, hl⟩ := hrefuses.listed
      exact absurd hl (hnot e he)
    | @listed k w i hk hacceptable =>
      obtain rfl := append_language_inj hname
      obtain rfl : w = 0 := hrefuses.zero _ (List.mem_of_getElem? hk) rfl
      refine ⟨?_, ?_, k, hacceptable, hrefuses, hfirst.good⟩
      · refine Bool.eq_false_iff.mpr fun hfile => ?_
        rcases hfirst.before .itself .itself hfile with heq | hbefore
        · cases heq
        · cases hbefore
      · rintro l hl ⟨⟨k', w⟩, hmem, rfl, hw⟩
        obtain ⟨j, hj⟩ := List.getElem?_of_mem hmem
        refine Bool.eq_false_iff.mpr fun hfile => ?_
        rcases hfirst.before _ (.listed hj hl) hfile with heq | hbefore
        · cases heq
          exact absurd hw (Nat.lt_irrefl 0)
        · cases hbefore with
          | weight hlt => exact absurd hlt (Nat.not_lt_zero w)
          | position => exact absurd hw (Nat.lt_irrefl 0)
  · rintro ⟨hexact, hwanted, l, hl, hrefuses, hfile⟩
    obtain ⟨⟨l, w⟩, he, rfl⟩ := hrefuses.listed
    obtain ⟨i, hi⟩ := List.getElem?_of_mem he
    have hoffered : Form.Offered o.acceptableLanguages (qualityElements value) (.listed l w i) :=
      .listed hi hl
    obtain ⟨name, hsearch⟩ := exists_searchFile_of_offered hoffered hfile
    obtain ⟨f, hfirst, rfl⟩ := exists_isFirst_of_searchFile hsearch
    have hfound := hfirst.good
    cases hfirst.offered with
    | itself => exact absurd (hexact.symm.trans hfound) (by decide)
    | unlisted =>
      rcases hfirst.before _ hoffered hfile with heq | hbefore
      · cases heq
      · cases hbefore
    | @listed k v j hk hacceptable =>
      have hunwanted : ¬Wants value k := fun hwants =>
        absurd ((hwanted k hacceptable hwants).symm.trans hfound) (by decide)
      exact ⟨k, refuses_of_not_wants (List.mem_of_getElem? hk) rfl hunwanted, hsearch⟩

/-- A directory with a page in English and in French. -/
def bilingualTree : FileTree :=
  .ofFiles ⟨0, 0⟩ [("/www/page.html.en", [0x41]), ("/www/page.html.fr", [0x42])]

def trilingualOptions : MountOptions := { acceptableLanguages := ["en", "fr", "de"] }

/-- A request of a client that wants German and refuses French. -/
def germanRequest : Request :=
  (Request.new .get "/page.html").withField "Accept-Language" "fr;q=0, de;q=0.5"

theorem searchFile_refused_iff_germanRequest :
    germanRequest.field? "accept-language" = some "fr;q=0, de;q=0.5" ∧
      ∃ l, Refuses "fr;q=0, de;q=0.5" l ∧
        searchFile bilingualTree "/www" "/page.html" (languages trilingualOptions germanRequest) =
          some ("/page.html" ++ '.' :: l) := by
  have hvalue : germanRequest.field? "accept-language" = some "fr;q=0, de;q=0.5" := by
    decide +kernel
  have hrefuses : Refuses "fr;q=0, de;q=0.5" "fr" := ⟨by decide +kernel, by decide +kernel⟩
  refine ⟨hvalue, (searchFile_refused_iff hvalue).mpr ⟨by decide +kernel, by decide +kernel, ?_⟩⟩
  exact ⟨"fr", by decide, hrefuses, by decide +kernel⟩

/-- A request of a client that only refuses French. -/
def noFrenchRequest : Request :=
  (Request.new .get "/page.html").withField "Accept-Language" "fr;q=0"

/-- A refused language is not given up for one that the client has not listed. -/
theorem not_forall_refused_given_up :
    ¬∀ (t : FileTree) (o : MountOptions) (dir base : Text) (r : Request) (value k l : Text),
      r.field? "accept-language" = some value → Refuses value k → l ∈ o.acceptableLanguages →
        (Wants value l ∨ ∀ e ∈ qualityElements value, e.1 ≠ l) →
          t.isFile (dir ++ (base ++ '.' :: l)) = true →
            searchFile t dir base (languages o r) ≠ some (base ++ '.' :: k) := by
  intro h
  have hvalue : noFrenchRequest.field? "accept-language" = some "fr;q=0" := by decide +kernel
  have hrefuses : Refuses "fr;q=0" "fr" := ⟨by decide +kernel, by decide +kernel⟩
  refine h bilingualTree trilingualOptions "/www" "/page.html" noFrenchRequest _ "fr" "en" hvalue
    hrefuses (by decide) (.inr (by decide +kernel)) (by decide +kernel) ?_
  have helements : qualityElements "fr;q=0" = [(("fr" : Text), 0)] := by decide +kernel
  rw [languages_eq_byWeight hvalue, helements, byWeight, List.mergeSort_singleton]
  decide +kernel

end Resolve

end Webroot
