import Webroot.Proofs.Mount.Redirect

/-!
# Which directory a request ends in

A request that ends in a directory ends in the one that the first names of its path lead to. These
are all of its names, but for an empty one at the end, unless an empty name stands among them: the
walk takes it for the slash at the end, looks for an index file, and leaves what follows it in the
path info. So `//missing/` ends in the root directory whether or not there is anything of that
name.

Main statements: `whole_path_iff_of_directory`, the requests whose whole path is walked, and
`not_forall_whole_path`.
-/

namespace Webroot

/-- A path **names a directory** below a root: none of its names is empty but for one at the end,
and they lead from directory to directory. -/
def NamesDirectory (t : FileTree) (root path : Text) : Prop :=
  ∃ ns : List Text, (∀ n ∈ ns, n ≠ []) ∧ (path = Path.below ns ∨ path = Path.below ns ++ ['/']) ∧
    ∀ k ≤ ns.length, t.isDirectory (root ++ Path.below (ns.take k)) = true

namespace Resolve

open Http

variable {t : FileTree} {o : MountOptions} {hidden : HiddenNames} {root : Text} {r : Request}
  {x : Exchange}

/-! ### Directories on the way -/

/-- Every segment that is passed leads to a directory. -/
theorem Passes.isDirectory_take {here there : Text} {pre : List Text}
    (h : Passes t hidden here pre there) {k : Nat} (hk : k < pre.length) :
    t.isDirectory (here ++ (pre.take (k + 1)).flatten) = true := by
  induction h generalizing k with
  | nil => cases hk
  | @cons here base there pre _ _ hdir _ ih =>
    cases k with
    | zero => simpa using hdir
    | succ k =>
      have hrest := ih (Nat.lt_of_succ_lt_succ hk)
      rwa [List.append_assoc, ← List.flatten_cons, ← List.take_succ_cons] at hrest

/-- The names that are passed lead from the root from directory to directory. -/
theorem Reaches.isDirectory_below {taken left : List Text}
    (h : Reaches t o root r ([] :: taken.map ('/' :: ·)) left) :
    ∀ k ≤ taken.length, t.isDirectory (root ++ Path.below (taken.take k)) = true := by
  intro k hk
  have hdir := h.passes.isDirectory_take (k := k) (by simpa using Nat.lt_succ_of_le hk)
  rwa [List.take_succ_cons, ← List.map_take, flatten_names] at hdir

/-- A request that ends in a directory passes the root and then names of its path; what is left is
nothing, or it starts with an empty name. -/
theorem EndsInDirectory.exists_taken {pre left : List Text}
    (h : EndsInDirectory t o root r pre left) :
    ∃ taken rest, Path.names r.pathInfo = taken ++ rest ∧ pre = [] :: taken.map ('/' :: ·) ∧
      left = rest.map ('/' :: ·) ∧ (∀ n ∈ taken, n ≠ []) ∧
        (rest = [] ∨ ∃ tail, rest = [] :: tail) := by
  rcases h.reaches.eq_nil_or_exists_names with ⟨-, hleft, -⟩ | ⟨taken, rest, hnames, rfl, rfl⟩
  · -- the root itself is no lone slash
    rcases h.unpicked with hnil | ⟨hhead, -⟩
    · rw [hleft] at hnil
      cases hnil
    · rw [hleft] at hhead
      cases hhead
  · refine ⟨taken, rest, hnames, rfl, rfl, fun n hn => (h.reaches.allowed_names n hn).2, ?_⟩
    rcases h.unpicked with hnil | ⟨hhead, -⟩
    · exact .inl (List.map_eq_nil_iff.mp hnil)
    · cases rest with
      | nil => exact .inl rfl
      | cons n tail =>
        obtain rfl : n = [] := by simpa using hhead
        exact .inr ⟨tail, rfl⟩

/-- The segments of names, those walked and the one before which the walk stops. -/
theorem flatten_taken (taken rest : List Text) :
    ([] :: taken.map ('/' :: ·)).flatten ++ ((rest.map ('/' :: ·)).take 1).flatten =
      Path.below taken ++ Path.below (rest.take 1) := by
  rw [flatten_names, ← List.map_take, ← Path.below_eq_flatten]

/-- Resolution that gives a directory walks names of the path, and an empty name after them. -/
theorem exists_taken_of_resolve (ho : o.Silent)
    (h : (resolve t o root x).result = .ok .directory) :
    ∃ taken rest, Path.names x.request.pathInfo = taken ++ rest ∧ (∀ n ∈ taken, n ≠ []) ∧
      (rest = [] ∨ ∃ tail, rest = [] :: tail) ∧
      (∀ k ≤ taken.length, t.isDirectory (root ++ Path.below (taken.take k)) = true) ∧
      (resolve t o root x).exchange =
        moved root x (Path.below taken ++ Path.below (rest.take 1))
          ((rest.drop 1).map ('/' :: ·)) := by
  obtain ⟨pre, left, hdir⟩ := exists_endsInDirectory_of_resolve ho h
  obtain ⟨taken, rest, hnames, rfl, rfl, hne, hrest⟩ := hdir.exists_taken
  refine ⟨taken, rest, hnames, hne, hrest, hdir.reaches.isDirectory_below, ?_⟩
  rw [hdir.resolve_eq ho, flatten_taken, List.map_drop]

/-! ### Whole paths -/

/-- Names after which nothing but an empty one is left have no empty one before the last, and the
other way round. -/
theorem drop_eq_nil_iff {taken rest : List Text} (htaken : ∀ n ∈ taken, n ≠ [])
    (hrest : rest = [] ∨ ∃ tail, rest = [] :: tail) :
    rest.drop 1 = [] ↔ ∀ n ∈ (taken ++ rest).dropLast, n ≠ [] := by
  rcases hrest with rfl | ⟨tail, rfl⟩
  · rw [List.append_nil]
    exact iff_of_true rfl fun n hn => htaken n (List.dropLast_subset taken hn)
  · rw [List.dropLast_append_of_ne_nil (List.cons_ne_nil _ _), List.drop_one, List.tail_cons]
    cases tail with
    | nil => exact iff_of_true rfl fun n hn => htaken n (by simpa using hn)
    | cons n tail =>
      refine iff_of_false (List.cons_ne_nil _ _) fun hall => ?_
      exact hall [] (by simp [List.dropLast_cons_of_ne_nil]) rfl

/-- **Directories.** Of the requests that end in a directory those have their whole path walked, and
name that directory, whose path info is empty or starts with a slash and holds no empty name before
the last one. All others end in a directory that they do not name. -/
theorem whole_path_iff_of_directory (ho : o.Silent)
    (h : (resolve t o root x).result = .ok .directory) :
    ((resolve t o root x).exchange.request.pathInfo = [] ∧
        (resolve t o root x).exchange.request.scriptName =
          x.request.scriptName ++ x.request.pathInfo ∧
        NamesDirectory t root x.request.pathInfo) ↔
      (x.request.pathInfo = [] ∨ Path.isAbsolute x.request.pathInfo = true) ∧
        ∀ n ∈ (Path.names x.request.pathInfo).dropLast, n ≠ [] := by
  obtain ⟨taken, rest, hnames, htaken, hrest, hdir, hexchange⟩ := exists_taken_of_resolve ho h
  obtain ⟨start, hstart, hpath⟩ := Path.exists_eq_append_below x.request.pathInfo
  have hinfo : (resolve t o root x).exchange.request.pathInfo = Path.below (rest.drop 1) := by
    rw [hexchange, Path.below_eq_flatten]
    rfl
  have hscript : (resolve t o root x).exchange.request.scriptName =
      x.request.scriptName ++ (Path.below taken ++ Path.below (rest.take 1)) := by
    rw [hexchange]
    rfl
  -- the path is what stands before its first slash, what was walked, and what was left
  have hparts : x.request.pathInfo =
      start ++ (Path.below taken ++ Path.below (rest.take 1) ++ Path.below (rest.drop 1)) := by
    rw [List.append_assoc, ← Path.below_append, List.take_append_drop, ← Path.below_append,
      ← hnames]
    exact hpath
  rw [hinfo, hscript, Path.below_eq_nil_iff, ← Path.eq_nil_iff_of_append_below hstart hpath, hnames,
    ← drop_eq_nil_iff htaken hrest, @and_comm (start = [])]
  refine and_congr_right fun hnone => ?_
  rw [hnone, Path.below_nil, List.append_nil] at hparts
  constructor
  · rintro ⟨hwalked, -⟩
    have hlength := congrArg List.length ((List.append_cancel_left hwalked).trans hparts)
    simp only [List.length_append] at hlength
    exact List.length_eq_zero_iff.mp (by omega)
  · rintro rfl
    rw [List.nil_append] at hparts
    refine ⟨by rw [hparts], taken, htaken, ?_, hdir⟩
    rcases hrest with rfl | ⟨tail, rfl⟩
    · exact .inl (by simpa using hparts)
    · exact .inr hparts

/-- A request for a directory that is not there, with a second slash in front of its name. -/
def missingExchange : Exchange := { request := .new .get "//missing/" }

theorem resolve_missingExchange :
    (resolve Mount.frenchSetting.tree Mount.bareMount.options "/www" missingExchange).result =
      .ok .directory := by
  decide +kernel

theorem whole_path_iff_of_directory_missingExchange :
    ((resolve Mount.frenchSetting.tree Mount.bareMount.options "/www"
          missingExchange).exchange.request.pathInfo = [] ∧
        (resolve Mount.frenchSetting.tree Mount.bareMount.options "/www"
          missingExchange).exchange.request.scriptName =
            missingExchange.request.scriptName ++ missingExchange.request.pathInfo ∧
        NamesDirectory Mount.frenchSetting.tree "/www" missingExchange.request.pathInfo) ↔
      (missingExchange.request.pathInfo = [] ∨
          Path.isAbsolute missingExchange.request.pathInfo = true) ∧
        ∀ n ∈ (Path.names missingExchange.request.pathInfo).dropLast, n ≠ [] :=
  whole_path_iff_of_directory ⟨rfl, rfl, rfl⟩ resolve_missingExchange

/-- A request may end in a directory that it does not name. -/
theorem not_forall_whole_path :
    ¬ ∀ (t : FileTree) (o : MountOptions) (root : Text) (x : Exchange),
      o.Silent → o.userDir = none → t.isDirectory root = true → x.request.method = .get →
        Path.isAbsolute x.request.path = true → x.request.scriptName = [] →
          x.request.pathInfo = x.request.path →
            (resolve t o root x).result = .ok .directory →
              (resolve t o root x).exchange.request.pathInfo = [] ∧
                (resolve t o root x).exchange.request.scriptName =
                  x.request.scriptName ++ x.request.pathInfo ∧
                NamesDirectory t root x.request.pathInfo := by
  intro h
  obtain ⟨hinfo, -, -⟩ := h Mount.frenchSetting.tree Mount.bareMount.options "/www" missingExchange
    ⟨rfl, rfl, rfl⟩ rfl (by decide +kernel) rfl (by decide +kernel) rfl rfl resolve_missingExchange
  have hleft : (resolve Mount.frenchSetting.tree Mount.bareMount.options "/www"
      missingExchange).exchange.request.pathInfo = ("/missing/" : Text) := by
    decide +kernel
  rw [hleft] at hinfo
  cases hinfo

end Resolve

end Webroot
