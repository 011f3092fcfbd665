import Webroot.Proofs.Mount.Walk

/-!
# The choice at the end of the walk

Where the walk stops, resolution looks for a file: an index file for a lone slash, the segment
itself for any other, and either of them in several languages. `pick` is that search.

A request does one of three things (`finds_or_endsInDirectory_or_misses`): it finds a file, ends
in a directory, or misses. `Finds.resolve_eq`, `EndsInDirectory.resolve_eq` and
`Misses.resolve_result` say what resolution makes of each.
-/

namespace Webroot.Resolve

open Http

variable {t : FileTree} {o : MountOptions}

/-! ### The search -/

/-- The languages that are tried for a request. -/
def languages (o : MountOptions) (r : Request) : List Text :=
  languageOrder o.acceptableLanguages r.acceptLanguage

/-- The name under which a file is found for the segment that stopped the walk. -/
def pick (t : FileTree) (o : MountOptions) (here base : Text) (ls : List Text) : Option Text :=
  if base = ['/'] then searchIndex t here o.directoryIndex ls else searchFile t here base ls

theorem mem_variants {base name : Text} {ls : List Text} :
    name ∈ variants base ls ↔ name = base ∨ ∃ l ∈ ls, name = base ++ '.' :: l := by
  simp [variants, eq_comm]

/-- All languages of the mount are tried, and no others. -/
theorem mem_languageOrder {acceptable requested : List Text} {l : Text} :
    l ∈ languageOrder acceptable requested ↔ l ∈ acceptable := by
  simp only [languageOrder, List.mem_append, List.mem_filter, List.contains_eq_mem,
    decide_eq_true_eq, Bool.not_eq_true', decide_eq_false_iff_not]
  constructor
  · rintro (⟨-, h⟩ | ⟨h, -⟩) <;> exact h
  · intro h
    by_cases hl : l ∈ requested
    · exact .inl ⟨hl, h⟩
    · exact .inr ⟨h, hl⟩

theorem mem_acceptable_of_mem_languages {r : Request} {l : Text} (h : l ∈ languages o r) :
    l ∈ o.acceptableLanguages :=
  mem_languageOrder.mp h

/-- The languages do not depend on how far the walk has come. -/
theorem languages_moved (o : MountOptions) (r : Request) (scriptName pathInfo : Text) :
    languages o { r with scriptName, pathInfo } = languages o r := rfl

theorem searchFile_eq_some {dir base name : Text} {ls : List Text}
    (h : searchFile t dir base ls = some name) :
    name ∈ variants base ls ∧ t.isFile (dir ++ name) = true := by
  have hfile := List.find?_some h
  exact ⟨List.mem_of_find?_eq_some h, hfile⟩

/-- What is picked is a file, and a variant of the segment or of an index name. -/
theorem pick_eq_some {here base name : Text} {ls : List Text}
    (h : pick t o here base ls = some name) :
    t.isFile (here ++ name) = true ∧
      (base ≠ ['/'] ∧ name ∈ variants base ls ∨
        base = ['/'] ∧ ∃ i ∈ o.directoryIndex, name ∈ variants ('/' :: i) ls) := by
  rw [pick] at h
  split_ifs at h with hslash
  · obtain ⟨i, hi, hname⟩ := List.exists_of_findSome?_eq_some h
    obtain ⟨hmem, hfile⟩ := searchFile_eq_some hname
    exact ⟨hfile, .inr ⟨hslash, i, hi, hmem⟩⟩
  · obtain ⟨hmem, hfile⟩ := searchFile_eq_some h
    exact ⟨hfile, .inl ⟨hslash, hmem⟩⟩

/-- What is picked for a name is a name: itself or an index name, and a language after it if there
is one. -/
theorem exists_name_of_pick {here n name : Text} {ls : List Text}
    (h : pick t o here ('/' :: n) ls = some name) :
    ∃ stem n', name = '/' :: n' ∧ (stem = n ∨ stem ∈ o.directoryIndex) ∧
      (n' = stem ∨ ∃ l ∈ ls, n' = stem ++ '.' :: l) := by
  obtain ⟨-, ⟨-, hmem⟩ | ⟨-, i, hi, hmem⟩⟩ := pick_eq_some h
  · rcases mem_variants.mp hmem with rfl | ⟨l, hl, rfl⟩
    · exact ⟨n, n, rfl, .inl rfl, .inl rfl⟩
    · exact ⟨n, n ++ '.' :: l, rfl, .inl rfl, .inr ⟨l, hl, rfl⟩⟩
  · rcases mem_variants.mp hmem with rfl | ⟨l, hl, rfl⟩
    · exact ⟨i, i, rfl, .inr hi, .inl rfl⟩
    · exact ⟨i, i ++ '.' :: l, rfl, .inr hi, .inr ⟨l, hl, rfl⟩⟩

/-- The choice for a segment is what is picked for it. -/
theorem choose_cons (here base : Text) (rest : List Text) (x : Exchange) :
    choose t o here (base :: rest) x =
      match pick t o here base (languages o x.request) with
      | some name => found o x here name rest
      | none =>
        if base = ['/'] then ⟨.ok .directory, shift x base rest (here ++ base)⟩
        else ⟨.error (.missing x.request.path), x⟩ := by
  rw [choose, pick, languages]
  split_ifs <;> rfl

/-! ### Where a request leads -/

section Outcomes

variable (t : FileTree) (o : MountOptions) (root : Text) (r : Request)

/-- The walk along the path of a request passes `pre` and stops before `left`. -/
structure Reaches (pre left : List Text) : Prop where
  eq_append : [] :: segments r.pathInfo = pre ++ left
  passes : Passes t o.hidden root pre (root ++ pre.flatten)
  stops : Stops t o.hidden (root ++ pre.flatten) left

/-- A request **finds** a file: the walk stops before an allowed segment, and a name is picked for
it. -/
structure Finds (pre : List Text) (base : Text) (rest : List Text) (name : Text) : Prop where
  reaches : Reaches t o root r pre (base :: rest)
  allowed : refuses o.hidden base = false
  picked : pick t o (root ++ pre.flatten) base (languages o r) = some name

/-- A request **ends in a directory**: the walk stops before nothing, or before a lone slash for
which no index file is picked. -/
structure EndsInDirectory (pre left : List Text) : Prop where
  reaches : Reaches t o root r pre left
  unpicked : left = [] ∨ left.head? = some ['/'] ∧ refuses o.hidden ['/'] = false ∧
    pick t o (root ++ pre.flatten) ['/'] (languages o r) = none

/-- A request **misses**: the walk stops before a refused segment, or before one other than a lone
slash for which no file is picked. -/
structure Misses (pre : List Text) (base : Text) (rest : List Text) : Prop where
  reaches : Reaches t o root r pre (base :: rest)
  unpicked : refuses o.hidden base = true ∨ base ≠ ['/'] ∧
    pick t o (root ++ pre.flatten) base (languages o r) = none

end Outcomes

variable {root : Text} {r : Request} {x : Exchange}

theorem exists_reaches (t : FileTree) (o : MountOptions) (root : Text) (r : Request) :
    ∃ pre left, Reaches t o root r pre left := by
  obtain ⟨pre, left, here, hsegs, hpass, hstop⟩ :=
    exists_passes t o.hidden ([] :: segments r.pathInfo) root
  obtain rfl := hpass.eq_append
  exact ⟨pre, left, hsegs, hpass, hstop⟩

/-- The walk stops at the root itself, or it passes the root and then names of the path. -/
theorem Reaches.eq_nil_or_exists_names {pre left : List Text} (h : Reaches t o root r pre left) :
    (pre = [] ∧ left = [] :: segments r.pathInfo ∧
        (refuses o.hidden [] = true ∨ t.isDirectory root = false)) ∨
      ∃ taken rest, Path.names r.pathInfo = taken ++ rest ∧
        pre = [] :: taken.map ('/' :: ·) ∧ left = rest.map ('/' :: ·) := by
  have hsegs := h.eq_append
  cases pre with
  | nil =>
    rw [List.nil_append] at hsegs
    have hstop := h.stops
    rw [← hsegs] at hstop
    exact .inl ⟨rfl, hsegs.symm, by simpa [Stops] using hstop⟩
  | cons base pre =>
    rw [List.cons_append, List.cons.injEq, segments_eq_map_names] at hsegs
    obtain ⟨rfl, hsegs⟩ := hsegs
    obtain ⟨taken, rest, hnames, rfl, rfl⟩ := List.map_eq_append_iff.mp hsegs
    exact .inr ⟨taken, rest, hnames, rfl, rfl⟩

/-- The names passed are allowed and not empty. -/
theorem Reaches.allowed_names {taken left : List Text}
    (h : Reaches t o root r ([] :: taken.map ('/' :: ·)) left) :
    ∀ n ∈ taken, refuses o.hidden ('/' :: n) = false ∧ n ≠ [] := by
  intro n hn
  have hmem : '/' :: n ∈ [] :: taken.map ('/' :: ·) := by simpa using hn
  exact ⟨h.passes.allowed _ hmem, by simpa using h.passes.ne_slash _ hmem⟩

/-- A file is found for the root itself, if that is no directory, or for a name of the path. -/
theorem Finds.eq_nil_or_exists_names {pre rest : List Text} {base name : Text}
    (h : Finds t o root r pre base rest name) :
    (pre = [] ∧ base = [] ∧ t.isDirectory root = false) ∨
      ∃ taken n tail, Path.names r.pathInfo = taken ++ n :: tail ∧
        pre = [] :: taken.map ('/' :: ·) ∧ base = '/' :: n := by
  rcases h.reaches.eq_nil_or_exists_names with
    ⟨hpre, hleft, hstop⟩ | ⟨taken, left, hnames, hpre, hleft⟩
  · obtain ⟨rfl, -⟩ := List.cons.inj hleft
    exact .inl ⟨hpre, rfl, by simpa [h.allowed] using hstop⟩
  · obtain ⟨n, tail, rfl, rfl, -⟩ := List.map_eq_cons_iff.mp hleft.symm
    exact .inr ⟨taken, n, tail, hnames, hpre, rfl⟩

/-- A request finds a file, ends in a directory or misses. -/
theorem finds_or_endsInDirectory_or_misses (t : FileTree) (o : MountOptions) (root : Text)
    (r : Request) :
    (∃ pre base rest name, Finds t o root r pre base rest name) ∨
      (∃ pre left, EndsInDirectory t o root r pre left) ∨
      ∃ pre base rest, Misses t o root r pre base rest := by
  obtain ⟨pre, left, hreach⟩ := exists_reaches t o root r
  cases left with
  | nil => exact .inr (.inl ⟨pre, [], hreach, .inl rfl⟩)
  | cons base rest =>
    by_cases hrefused : refuses o.hidden base = true
    · exact .inr (.inr ⟨pre, base, rest, hreach, .inl hrefused⟩)
    · rw [Bool.not_eq_true] at hrefused
      cases hpick : pick t o (root ++ pre.flatten) base (languages o r) with
      | some name => exact .inl ⟨pre, base, rest, name, hreach, hrefused, hpick⟩
      | none =>
        by_cases hslash : base = ['/']
        · subst hslash
          exact .inr (.inl ⟨pre, ['/'] :: rest, hreach, .inr ⟨rfl, hrefused, hpick⟩⟩)
        · exact .inr (.inr ⟨pre, base, rest, hreach, .inr ⟨hslash, hpick⟩⟩)

/-! ### What resolution makes of it -/

/-- The exchange after `taken` has moved from the path info to the script name and to the local
path, and `rest` is left. -/
def moved (root : Text) (x : Exchange) (taken : Text) (rest : List Text) : Exchange :=
  { request := { x.request with
      scriptName := x.request.scriptName ++ taken
      pathInfo := rest.flatten }
    response := x.response.setFilename (root ++ taken)
    journal := x.journal }

theorem Finds.resolve_eq {pre rest : List Text} {base name : Text} (ho : o.Silent)
    (h : Finds t o root x.request pre base rest name) :
    resolve t o root x = ⟨.ok .file, moved root x (pre.flatten ++ name) rest⟩ := by
  rw [resolve_eq_finish h.reaches.eq_append h.reaches.passes h.reaches.stops, finish,
    List.head?_cons, Option.any_some, if_neg (by simp [h.allowed]), choose_cons,
    walked_entered ho, languages_moved, h.picked]
  simp [found, ho.file, Exchange.call, shift, moved, Response.setFilename]

theorem EndsInDirectory.resolve_eq {pre left : List Text} (ho : o.Silent)
    (h : EndsInDirectory t o root x.request pre left) :
    resolve t o root x =
      ⟨.ok .directory, moved root x (pre.flatten ++ (left.take 1).flatten) (left.drop 1)⟩ := by
  rw [resolve_eq_finish h.reaches.eq_append h.reaches.passes h.reaches.stops, walked_entered ho]
  rcases h.unpicked with rfl | ⟨hhead, hallowed, hpick⟩
  · have hpre : pre ≠ [] := by
      rintro rfl
      simpa using h.reaches.eq_append
    simp [finish, choose, moved, hpre]
  · obtain ⟨rest, rfl⟩ := List.head?_eq_some_iff.mp hhead
    rw [finish, List.head?_cons, Option.any_some, if_neg (by simp [hallowed]), choose_cons,
      languages_moved, hpick]
    simp [shift, moved, Response.setFilename]

theorem Misses.resolve_eq {pre rest : List Text} {base : Text} (ho : o.Silent)
    (h : Misses t o root x.request pre base rest) :
    resolve t o root x =
      ⟨.error (.missing x.request.path), walked o pre (base :: rest) root (entered root x)⟩ := by
  rw [resolve_eq_finish h.reaches.eq_append h.reaches.passes h.reaches.stops, finish,
    List.head?_cons, Option.any_some, walked_entered ho]
  by_cases hrefused : refuses o.hidden base = true
  · rw [if_pos hrefused]
  · obtain ⟨hslash, hpick⟩ := h.unpicked.resolve_left hrefused
    rw [if_neg hrefused, choose_cons, languages_moved, hpick]
    simp [hslash]

theorem Misses.resolve_result {pre rest : List Text} {base : Text} (ho : o.Silent)
    (h : Misses t o root x.request pre base rest) :
    (resolve t o root x).result = .error (.missing x.request.path) := by
  rw [h.resolve_eq ho]

/-- Resolution gives a file only to requests that find one. -/
theorem exists_finds_of_resolve (ho : o.Silent) (h : (resolve t o root x).result = .ok .file) :
    ∃ pre base rest name, Finds t o root x.request pre base rest name := by
  rcases finds_or_endsInDirectory_or_misses t o root x.request with
    hfinds | ⟨pre, left, hdir⟩ | ⟨pre, base, rest, hmiss⟩
  · exact hfinds
  · rw [hdir.resolve_eq ho] at h
    cases h
  · rw [hmiss.resolve_result ho] at h
    cases h

/-- Resolution gives a directory only to requests that end in one. -/
theorem exists_endsInDirectory_of_resolve (ho : o.Silent)
    (h : (resolve t o root x).result = .ok .directory) :
    ∃ pre left, EndsInDirectory t o root x.request pre left := by
  rcases finds_or_endsInDirectory_or_misses t o root x.request with
    ⟨pre, base, rest, name, hfinds⟩ | hdir | ⟨pre, base, rest, hmiss⟩
  · rw [hfinds.resolve_eq ho] at h
    cases h
  · exact hdir
  · rw [hmiss.resolve_result ho] at h
    cases h

end Webroot.Resolve
