import Webroot.Proofs.Http.QualityList
import Webroot.Proofs.Mount.ExactResolution
import Webroot.Proofs.Mount.Observers

/-!
# The choice among languages

Where resolution looks for a file it tries **variants**: an exact name, and this name with a
language behind it. Which variant comes before which is a matter of three things: the position of
the exact name, the form of the variant, and among languages the weight that the client gives them
or, if it gives them none, their position among the languages of the mount (`Variant.Before`). The
search goes through the variants in this order (`Variant.pairwise_offers`), so that what it finds is
the first of them that is a file.

Main statement: `resolve_negotiated`.
-/

namespace Webroot.Resolve

open Http

/-! ### Forms -/

/-- The **form** of a variant: the exact name itself, or with a language behind it. The client may
have listed the language, with a weight and at a position in its list. Else the position is the one
among the languages of the mount. -/
inductive Form where
  | itself
  | listed (language : Text) (weight position : Nat)
  | unlisted (language : Text) (position : Nat)

namespace Form

/-- The name in a form. -/
def name (base : Text) : Form → Text
  | itself => base
  | listed l _ _ => base ++ '.' :: l
  | unlisted l _ => base ++ '.' :: l

/-- A form comes **before** another. -/
inductive Before : Form → Form → Prop
  | itself_listed {l : Text} {w i : Nat} : Before itself (listed l w i)
  | itself_unlisted {l : Text} {i : Nat} : Before itself (unlisted l i)
  | listed_unlisted {k l : Text} {w i j : Nat} : Before (listed k w i) (unlisted l j)
  | weight {k l : Text} {v w i j : Nat} : w < v → Before (listed k v i) (listed l w j)
  | position {k l : Text} {w i j : Nat} : i < j → Before (listed k w i) (listed l w j)
  | configured {k l : Text} {i j : Nat} : i < j → Before (unlisted k i) (unlisted l j)

variable (acceptable : List Text) (es : List (Text × Nat))

/-- A form is **offered** when the mount has its language, and the client has listed the language
or not, as the form says. -/
inductive Offered : Form → Prop
  | itself : Offered itself
  | listed {l : Text} {w i : Nat} : es[i]? = some (l, w) → l ∈ acceptable → Offered (listed l w i)
  | unlisted {l : Text} {i : Nat} : acceptable[i]? = some l → (∀ e ∈ es, e.1 ≠ l) →
      Offered (unlisted l i)

/-- The forms that are offered, in their order. -/
def offers : List Form :=
  itself ::
    (((ranked es).filter fun e => acceptable.contains e.1.1).map
        (fun e => listed e.1.1 e.1.2 e.2) ++
      (acceptable.zipIdx.filter fun l => !(byWeight es).contains l.1).map
        fun l => unlisted l.1 l.2)

variable {acceptable : List Text} {es : List (Text × Nat)}

theorem not_contains_byWeight {l : Text} :
    (!(byWeight es).contains l) = true ↔ ∀ e ∈ es, e.1 ≠ l := by
  simp only [byWeight, Bool.not_eq_true', List.contains_eq_mem, decide_eq_false_iff_not,
    List.mem_map, List.mem_mergeSort, not_exists, not_and, ne_eq]

theorem mem_offers {f : Form} : f ∈ offers acceptable es ↔ Offered acceptable es f := by
  constructor
  · intro h
    rcases List.mem_cons.mp h with rfl | h
    · exact .itself
    rcases List.mem_append.mp h with h | h
    · obtain ⟨⟨⟨l, w⟩, i⟩, he, rfl⟩ := List.mem_map.mp h
      obtain ⟨hmem, hl⟩ := List.mem_filter.mp he
      exact .listed (mem_ranked.mp hmem) (by simpa using hl)
    · obtain ⟨⟨l, i⟩, he, rfl⟩ := List.mem_map.mp h
      obtain ⟨hmem, hl⟩ := List.mem_filter.mp he
      exact .unlisted (List.mk_mem_zipIdx_iff_getElem?.mp hmem) (not_contains_byWeight.mp hl)
  · intro h
    refine List.mem_cons.mpr ?_
    cases h with
    | itself => exact .inl rfl
    | @listed l w i he hl =>
      refine .inr (List.mem_append_left _ (List.mem_map.mpr ⟨((l, w), i), ?_, rfl⟩))
      exact List.mem_filter.mpr ⟨mem_ranked.mpr he, by simpa using hl⟩
    | @unlisted l i hl hes =>
      refine .inr (List.mem_append_right _ (List.mem_map.mpr ⟨(l, i), ?_, rfl⟩))
      exact List.mem_filter.mpr
        ⟨List.mk_mem_zipIdx_iff_getElem?.mpr hl, not_contains_byWeight.mpr hes⟩

theorem pairwise_offers : (offers acceptable es).Pairwise Before := by
  refine List.pairwise_cons.mpr ⟨?_, List.pairwise_append.mpr ⟨?_, ?_, ?_⟩⟩
  · intro f hf
    rcases List.mem_append.mp hf with h | h
    · obtain ⟨e, -, rfl⟩ := List.mem_map.mp h
      exact .itself_listed
    · obtain ⟨l, -, rfl⟩ := List.mem_map.mp h
      exact .itself_unlisted
  · refine List.pairwise_map.mpr (((pairwise_ranked es).filter _).imp ?_)
    rintro ⟨⟨k, v⟩, i⟩ ⟨⟨l, w⟩, j⟩ (hweight | ⟨hweight, hposition⟩)
    · exact .weight hweight
    · obtain rfl : v = w := hweight
      exact .position hposition
  · exact List.pairwise_map.mpr (((pairwise_zipIdx acceptable).filter _).imp .configured)
  · intro f hf g hg
    obtain ⟨e, -, rfl⟩ := List.mem_map.mp hf
    obtain ⟨l, -, rfl⟩ := List.mem_map.mp hg
    exact .listed_unlisted

/-- The names that are tried are those of the forms offered. -/
theorem map_name_offers (acceptable : List Text) (es : List (Text × Nat)) (base : Text) :
    (offers acceptable es).map (name base) =
      variants base (languageOrder acceptable (byWeight es)) := by
  have hlisted : (byWeight es).filter (acceptable.contains ·) =
      ((ranked es).filter fun e => acceptable.contains e.1.1).map (·.1.1) := by
    rw [← map_ranked, List.filter_map]
    rfl
  have hunlisted : (acceptable.filter fun l => !(byWeight es).contains l) =
      (acceptable.zipIdx.filter fun l => !(byWeight es).contains l.1).map (·.1) := by
    conv_lhs => rw [← List.zipIdx_map_fst 0 acceptable, List.filter_map]
    rfl
  rw [variants, languageOrder, hlisted, hunlisted, offers]
  simp [Function.comp_def, name]

end Form

/-! ### Variants -/

/-- The exact names that are looked for: for a lone slash the index names, else the segment. -/
def exactNames (o : MountOptions) (base : Text) : List Text :=
  if base = ['/'] then o.directoryIndex.map ('/' :: ·) else [base]

/-- A **variant**: an exact name at a position, in a form. -/
structure Variant where
  position : Nat
  base : Text
  form : Form

namespace Variant

/-- The name of the file. -/
def name (v : Variant) : Text := v.form.name v.base

/-- A variant comes **before** another when its exact name does, or its form if they have the same
exact name. -/
def Before (v v' : Variant) : Prop :=
  v.position < v'.position ∨ v.position = v'.position ∧ v.form.Before v'.form

/-- A variant is **offered** when its exact name is looked for and its form is offered. -/
structure Offered (bases acceptable : List Text) (es : List (Text × Nat)) (v : Variant) : Prop where
  base : bases[v.position]? = some v.base
  form : v.form.Offered acceptable es

/-- The variants that are offered, in their order. -/
def offers (bases acceptable : List Text) (es : List (Text × Nat)) : List Variant :=
  bases.zipIdx.flatMap fun b => (Form.offers acceptable es).map fun f => ⟨b.2, b.1, f⟩

variable {bases acceptable : List Text} {es : List (Text × Nat)} {v : Variant}

theorem mem_offers : v ∈ offers bases acceptable es ↔ Offered bases acceptable es v := by
  constructor
  · intro h
    obtain ⟨⟨base, i⟩, hbase, h⟩ := List.mem_flatMap.mp h
    obtain ⟨f, hf, rfl⟩ := List.mem_map.mp h
    exact ⟨List.mk_mem_zipIdx_iff_getElem?.mp hbase, Form.mem_offers.mp hf⟩
  · intro h
    refine List.mem_flatMap.mpr ⟨(v.base, v.position), ?_, ?_⟩
    · exact List.mk_mem_zipIdx_iff_getElem?.mpr h.base
    · exact List.mem_map.mpr ⟨v.form, Form.mem_offers.mpr h.form, rfl⟩

theorem pairwise_offers (bases acceptable : List Text) (es : List (Text × Nat)) :
    (offers bases acceptable es).Pairwise Before := by
  refine List.pairwise_flatMap.mpr ⟨?_, (pairwise_zipIdx bases).imp ?_⟩
  · intro b _
    exact List.pairwise_map.mpr (Form.pairwise_offers.imp fun h => .inr ⟨rfl, h⟩)
  · intro b b' hlt v hv v' hv'
    obtain ⟨f, -, rfl⟩ := List.mem_map.mp hv
    obtain ⟨f', -, rfl⟩ := List.mem_map.mp hv'
    exact .inl hlt

end Variant

/-! ### The search -/

/-- What is **first** of the good among what is offered: good, and before all others that are. -/
structure IsFirst {α : Type} (R : α → α → Prop) (Offered Good : α → Prop) (a : α) : Prop where
  offered : Offered a
  good : Good a
  before : ∀ b, Offered b → Good b → b = a ∨ R a b

/-- A search through what is offered in its order finds the first. -/
theorem isFirst_of_find? {α : Type} {R : α → α → Prop} {Offered : α → Prop} {p : α → Bool}
    {l : List α} {a : α} (hl : l.Pairwise R) (hoffered : ∀ b, b ∈ l ↔ Offered b)
    (h : l.find? p = some a) : IsFirst R Offered (fun b => p b = true) a := by
  obtain ⟨hgood, front, rest, rfl, hfront⟩ := List.find?_eq_some_iff_append.mp h
  refine ⟨(hoffered a).mp (by simp), hgood, ?_⟩
  intro b hb hp
  rcases List.mem_append.mp ((hoffered b).mpr hb) with hb | hb
  · exact absurd hp (by simpa using hfront b hb)
  · rcases List.mem_cons.mp hb with rfl | hb
    · exact .inl rfl
    · exact .inr (List.rel_of_pairwise_cons (List.pairwise_append.mp hl).2.1 hb)

variable {t : FileTree} {o : MountOptions} {here base : Text}

/-- Looking for a name is going through its forms. -/
theorem searchFile_eq_find? (dir : Text) (es : List (Text × Nat)) (acceptable : List Text) :
    searchFile t dir base (languageOrder acceptable (byWeight es)) =
      ((Form.offers acceptable es).find? fun f => t.isFile (dir ++ f.name base)).map
        (Form.name base) := by
  rw [searchFile, ← Form.map_name_offers, List.find?_map]
  rfl

/-- The exact names are looked for one after another. -/
theorem pick_eq_findSome? (here : Text) (ls : List Text) :
    pick t o here base ls = (exactNames o base).findSome? fun b => searchFile t here b ls := by
  rw [pick, exactNames]
  split_ifs with hslash
  · rw [searchIndex, List.findSome?_map]
    rfl
  · rw [List.findSome?_singleton]

/-- Picking a name is going through the variants. -/
theorem pick_eq_find? (here : Text) (es : List (Text × Nat)) :
    pick t o here base (languageOrder o.acceptableLanguages (byWeight es)) =
      ((Variant.offers (exactNames o base) o.acceptableLanguages es).find? fun v =>
        t.isFile (here ++ v.name)).map Variant.name := by
  rw [pick_eq_findSome?, Variant.offers, List.find?_flatMap, List.map_findSome?]
  conv_lhs => rw [← List.zipIdx_map_fst 0 (exactNames o base), List.findSome?_map]
  congr 1
  funext b
  simp only [Function.comp_def, searchFile_eq_find?, List.find?_map, Option.map_map]
  rfl

/-! ### Resolution -/

variable {root : Text} {x : Exchange}

/-- Observers leave it to resolution what it gives. -/
theorem Gives.of_silenced {res : Resolved} {filename pathInfo : Text} (ho : o.Observing)
    (h : Gives (resolve t o.silenced root x) res filename pathInfo) :
    Gives (resolve t o root x) res filename pathInfo := by
  obtain ⟨n, -, hresolve⟩ := resolve_eq_silenced ho t root x
  rw [hresolve]
  exact ⟨h.result, h.filename, h.pathInfo⟩

theorem result_eq_silenced (ho : o.Observing) (t : FileTree) (root : Text) (x : Exchange) :
    (resolve t o root x).result = (resolve t o.silenced root x).result := by
  obtain ⟨n, -, hresolve⟩ := resolve_eq_silenced ho t root x
  rw [hresolve]

/-- **Negotiation.** Where the walk stops before a segment that it may look at, resolution gives the
first variant that is a file. It goes by the preferences in the header lines: an exact name comes
before its languages, the listed ones by decreasing weight and then by position, and then those that
the client does not list. If no variant is a file, a lone slash gives the directory and any other
segment fails. -/
theorem resolve_negotiated {lines : List (Text × Text)} {tss : List (List Text)}
    {ps : List Preference} {pre rest : List Text} (ho : o.Observing)
    (hcame : x.request.CameWith lines)
    (hlines : List.Forall₂ Lists (lineValues lines "accept-language") tss)
    (hstates : States tss.flatten ps) (hreach : Reaches t o root x.request pre (base :: rest))
    (hallowed : refuses o.hidden base = false) :
    let dir := root ++ pre.flatten
    let bases := exactNames o base
    let es := ps.map Preference.entry
    (∃ v, IsFirst Variant.Before (Variant.Offered bases o.acceptableLanguages es)
          (fun v => t.isFile (dir ++ v.name) = true) v ∧
        Gives (resolve t o root x) .file (dir ++ v.name) rest.flatten) ∨
      (∀ v, Variant.Offered bases o.acceptableLanguages es v → t.isFile (dir ++ v.name) = false) ∧
        if base = ['/'] then Gives (resolve t o root x) .directory (dir ++ ['/']) rest.flatten
        else (resolve t o root x).result = .error (.missing x.request.path) := by
  intro dir bases es
  have hreach' : Reaches t o.silenced root x.request pre (base :: rest) :=
    ⟨hreach.eq_append, hreach.passes, hreach.stops⟩
  have hpick : pick t o.silenced dir base (languages o.silenced x.request) =
      ((Variant.offers bases o.acceptableLanguages es).find? fun v =>
        t.isFile (dir ++ v.name)).map Variant.name := by
    rw [languages, Request.acceptLanguage_eq hcame hlines hstates]
    exact pick_eq_find? dir es
  cases hfind : (Variant.offers bases o.acceptableLanguages es).find? fun v =>
      t.isFile (dir ++ v.name) with
  | some v =>
    rw [hfind, Option.map_some] at hpick
    have hfinds : Finds t o.silenced root x.request pre base rest v.name :=
      ⟨hreach', hallowed, hpick⟩
    have hfirst := isFirst_of_find? (Variant.pairwise_offers ..) (fun _ => Variant.mem_offers) hfind
    refine .inl ⟨v, hfirst, Gives.of_silenced ho ?_⟩
    rw [hfinds.resolve_eq o.silent_silenced, List.append_assoc]
    exact gives_moved ..
  | none =>
    rw [hfind, Option.map_none] at hpick
    refine .inr ⟨?_, ?_⟩
    · intro v hoffered
      have hnone := List.find?_eq_none.mp hfind v (Variant.mem_offers.mpr hoffered)
      simpa using hnone
    · split_ifs with hslash
      · subst hslash
        have hdir : EndsInDirectory t o.silenced root x.request pre (['/'] :: rest) :=
          ⟨hreach', .inr ⟨rfl, hallowed, hpick⟩⟩
        refine Gives.of_silenced ho ?_
        rw [hdir.resolve_eq o.silent_silenced, List.append_assoc]
        exact gives_moved ..
      · have hmiss : Misses t o.silenced root x.request pre base rest :=
          ⟨hreach', .inr ⟨hslash, hpick⟩⟩
        rw [result_eq_silenced ho]
        exact hmiss.resolve_result o.silent_silenced

/-- A directory with a start page in two languages, and with another page. -/
def multilingualTree : FileTree :=
  .ofFiles ⟨0, 0⟩ [("/www/index.html.de", [0x41]), ("/www/index.html.en", [0x42]),
    ("/www/home.html", [0x43])]

def multilingualOptions : MountOptions :=
  { directoryIndex := ["index.html", "home.html"], acceptableLanguages := ["en", "fr", "de"] }

/-- What a client says that reads German best and French better than English, in two lines. -/
def polyglotLines : List (Text × Text) :=
  [("Accept-Language", "fr;q=0.5, en;q=0.25"), ("ACCEPT-LANGUAGE", "de;q=0.500")]

def polyglotExchange : Exchange := { request := (Request.new .get "/").withFields polyglotLines }

/-- What the lines say. -/
def polyglotPreferences : List Preference :=
  [⟨"fr", some ⟨"0", "5", by decide, by decide, by decide, by decide⟩, by decide, by decide⟩,
    ⟨"en", some ⟨"0", "25", by decide, by decide, by decide, by decide⟩, by decide, by decide⟩,
    ⟨"de", some ⟨"0", "500", by decide, by decide, by decide, by decide⟩, by decide, by decide⟩]

theorem resolve_negotiated_polyglotExchange :
    polyglotExchange.request.CameWith polyglotLines ∧
      Reaches multilingualTree multilingualOptions "/www" polyglotExchange.request [[]] [['/']] ∧
      Gives (resolve multilingualTree multilingualOptions "/www" polyglotExchange) .file
        "/www/index.html.de" [] := by
  have hcame : polyglotExchange.request.CameWith polyglotLines := ⟨.new .get "/", rfl, rfl⟩
  have hlines : List.Forall₂ Lists (lineValues polyglotLines "accept-language")
      [["fr;q=0.5", "en;q=0.25"], ["de;q=0.500"]] := by
    have hvalues : lineValues polyglotLines "accept-language" =
        [[] ++ (("fr;q=0.5" : Text) ++ []) ++ ',' :: ([' '] ++ (("en;q=0.25" : Text) ++ [])),
          [] ++ (("de;q=0.500" : Text) ++ [])] := by decide +kernel
    have hnone : ∀ c ∈ ([] : Text), Text.isBlank c = true := List.all_eq_true.mp rfl
    have hblank : ∀ c ∈ [' '], Text.isBlank c = true := List.all_eq_true.mp (by decide)
    rw [hvalues]
    exact .cons (.more hnone hnone (.last hblank hnone)) (.cons (.last hnone hnone) .nil)
  have hreach : Reaches multilingualTree multilingualOptions "/www" polyglotExchange.request [[]]
      [['/']] :=
    ⟨by decide +kernel, .cons (by decide +kernel) (by decide) (by decide +kernel) (.nil _),
      .inr (.inl rfl)⟩
  have hstates : States ([["fr;q=0.5", "en;q=0.25"], ["de;q=0.500"]] : List (List Text)).flatten
      polyglotPreferences := by
    rw [States]
    decide
  have hobserving : multilingualOptions.Observing :=
    MountOptions.Silent.observing ⟨rfl, rfl, rfl⟩
  refine ⟨hcame, hreach, ?_⟩
  rcases resolve_negotiated hobserving hcame hlines hstates hreach (by decide +kernel) with
    ⟨⟨i, b, f⟩, hfirst, hgives⟩ | ⟨hnone, -⟩
  · -- the German page is a file, and what is before it is none
    rcases hfirst.before ⟨0, "/index.html", .listed "de" 500 2⟩
        ⟨by decide, .listed (by decide) (by decide)⟩ (by decide +kernel) with
      hgerman | hlt | ⟨rfl, hbefore⟩
    · rwa [← hgerman] at hgives
    · exact absurd hlt (Nat.not_lt_zero i)
    · have hfile := hfirst.good
      obtain rfl : "/index.html" = b := Option.some.inj hfirst.offered.base
      cases hbefore with
      | itself_listed => exact absurd hfile (by decide +kernel)
      | @weight l _ w _ j _ hweight =>
        cases hfirst.offered.form with
        | listed hl _ =>
          have hmost : ∀ e ∈ polyglotPreferences.map Preference.entry, e.2 ≤ 500 := by decide
          exact absurd hweight (Nat.not_lt.mpr (hmost _ (List.mem_of_getElem? hl)))
      | @position l _ _ j _ hj =>
        cases hfirst.offered.form with
        | listed hl _ =>
          obtain rfl | rfl : j = 0 ∨ j = 1 := by omega
          · obtain rfl : "fr" = l := congrArg Prod.fst (Option.some.inj hl)
            exact absurd hfile (by decide +kernel)
          · have hweight : 250 = 500 := congrArg Prod.snd (Option.some.inj hl)
            exact absurd hweight (by decide)
  · have hfile := hnone ⟨0, "/index.html", .listed "de" 500 2⟩
      ⟨by decide, .listed (by decide) (by decide)⟩
    exact absurd hfile (by decide +kernel)

end Webroot.Resolve
