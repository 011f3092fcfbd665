import Mathlib.Order.Bounds.Basic
import Webroot.Proofs.Mount.ListedNames

/-!
# What resolution gives, exactly

On a mount without languages and callbacks, names that the walk may go through are resolved by the
tree alone. The walk goes down as long as they lead to directories. How far that is, the **depths**
of the names say: the walk stops at the greatest one (`exists_reaches_depth`). There resolution
looks for the file of the next name, for an index file if only a slash is left, and for nothing if
the path is used up.

Main statement: `resolve_exactly`.
-/

namespace Webroot.Resolve

open Http

variable {t : FileTree} {o : MountOptions} {root : Text} {r : Request} {x : Exchange}
  {ns : List Text}

/-! ### The search in one language -/

/-- A mount without languages tries none. -/
theorem languages_eq_nil (h : o.acceptableLanguages = []) (r : Request) : languages o r = [] := by
  simp [languages, languageOrder, h]

theorem searchFile_nil (t : FileTree) (dir base : Text) :
    searchFile t dir base [] = if t.isFile (dir ++ base) = true then some base else none := by
  rw [searchFile, variants, List.map_nil, List.find?_singleton]

theorem searchIndex_nil (t : FileTree) (dir : Text) (index : List Text) :
    searchIndex t dir index [] =
      (index.find? fun i => t.isFile (dir ++ '/' :: i)).map ('/' :: ·) := by
  induction index with
  | nil => rfl
  | cons i index ih =>
    rw [searchIndex] at ih ⊢
    rw [List.findSome?_cons, searchFile_nil, ih, List.find?_cons]
    cases t.isFile (dir ++ '/' :: i) <;> rfl

/-! ### How far names lead -/

/-- The **depths** of names below a root: as many of them as lead from the root from directory to
directory. -/
def depths (t : FileTree) (root : Text) (ns : List Text) : Set Nat :=
  {j | j ≤ ns.length ∧ ∀ i ≤ j, t.isDirectory (root ++ Path.below (ns.take i)) = true}

/-- A depth behind which no directory follows is the greatest one. -/
theorem isGreatest_depths {j : Nat} (hj : j ∈ depths t root ns)
    (hstop : j < ns.length → t.isDirectory (root ++ Path.below (ns.take (j + 1))) = false) :
    IsGreatest (depths t root ns) j := by
  refine ⟨hj, fun k hk => ?_⟩
  by_contra hlt
  rw [not_le] at hlt
  have hdir := hk.2 (j + 1) hlt
  rw [hstop (lt_of_lt_of_le hlt hk.1)] at hdir
  cases hdir

/-- What is left behind the names passed is either names of the path or what ends it. -/
theorem eq_append_of_append {taken rest ends : List Text} (htaken : ∀ n ∈ taken, n ≠ [])
    (hends : ∀ n ∈ ends, n = []) (h : ns ++ ends = taken ++ rest) :
    ∃ ms, ns = taken ++ ms ∧ rest = ms ++ ends := by
  rcases List.append_eq_append_iff.mp h with ⟨front, htake, hrest⟩ | ⟨ms, hns, hrest⟩
  · -- names passed at the end of the path would be empty
    have hfront : front = [] := by
      rw [List.eq_nil_iff_forall_not_mem]
      intro n hn
      exact htaken n (by rw [htake]; exact List.mem_append_right ns hn)
        (hends n (by rw [hrest]; exact List.mem_append_left rest hn))
    subst hfront
    exact ⟨[], by simpa using htake.symm, by simpa using hrest.symm⟩
  · exact ⟨ms, hns, hrest⟩

/-- The root has an empty name. -/
theorem refuses_nil (hidden : HiddenNames) : refuses hidden [] = hidden.hides [] := rfl

/-- The walk along allowed names stops at their greatest depth. -/
theorem exists_reaches_depth {ends : List Text} (hroot : t.isDirectory root = true)
    (hempty : o.hidden.hides [] = false)
    (hns : ∀ n ∈ ns, n ≠ [] ∧ refuses o.hidden ('/' :: n) = false) (hends : ∀ n ∈ ends, n = [])
    (hnames : Path.names r.pathInfo = ns ++ ends) :
    ∃ j, IsGreatest (depths t root ns) j ∧
      Reaches t o root r ([] :: (ns.take j).map ('/' :: ·))
        ((ns.drop j ++ ends).map ('/' :: ·)) := by
  obtain ⟨pre, left, hreach⟩ := exists_reaches t o root r
  rcases hreach.eq_nil_or_exists_names with ⟨-, -, hstop⟩ | ⟨taken, rest, hsplit, rfl, rfl⟩
  · rw [refuses_nil, hempty, hroot] at hstop
    simp at hstop
  · rw [hnames] at hsplit
    obtain ⟨ms, rfl, rfl⟩ := eq_append_of_append (fun n hn => (hreach.allowed_names n hn).2) hends
      hsplit
    refine ⟨taken.length, isGreatest_depths ⟨?_, ?_⟩ ?_, ?_⟩
    · simp
    · intro i hi
      rw [List.take_append_of_le_length hi]
      exact hreach.isDirectory_below i hi
    · -- the walk stops before the next name because it leads to no directory
      intro hlt
      obtain ⟨n, ms, rfl⟩ : ∃ n ms', ms = n :: ms' := by
        cases ms with
        | nil => simp at hlt
        | cons n ms => exact ⟨n, ms, rfl⟩
      obtain ⟨hne, hallowed⟩ := hns n (by simp)
      have hstop := hreach.stops
      rw [flatten_names, List.cons_append, List.map_cons, Stops, hallowed,
        ← Path.append_below_concat] at hstop
      rw [List.take_length_add_append, List.take_one, List.head?_cons, Option.toList_some]
      simpa [hne] using hstop
    · simpa using hreach

/-! ### What is found there -/

/-- A resolution **gives** a result, a local path, and a path info that is left. -/
structure Gives (a : Answer Resolved) (result : Resolved) (filename pathInfo : Text) : Prop where
  result : a.result = .ok result
  filename : a.exchange.response.filename = some filename
  pathInfo : a.exchange.request.pathInfo = pathInfo

theorem gives_moved (res : Resolved) (root : Text) (x : Exchange) (taken : Text)
    (rest : List Text) :
    Gives ⟨.ok res, moved root x taken rest⟩ res (root ++ taken) rest.flatten :=
  ⟨rfl, rfl, rfl⟩

/-- Where the walk stops before a name, resolution gives the file of that name or nothing. -/
theorem Reaches.resolve_name {pre rest : List Text} {base : Text} (ho : o.Silent)
    (hlang : o.acceptableLanguages = []) (h : Reaches t o root x.request pre (base :: rest))
    (hallowed : refuses o.hidden base = false) (hbase : base ≠ ['/']) :
    if t.isFile (root ++ pre.flatten ++ base) = true then
      Gives (resolve t o root x) .file (root ++ pre.flatten ++ base) rest.flatten
    else (resolve t o root x).result = .error (.missing x.request.path) := by
  have hpick : pick t o (root ++ pre.flatten) base (languages o x.request) =
      if t.isFile (root ++ pre.flatten ++ base) = true then some base else none := by
    rw [pick, if_neg hbase, languages_eq_nil hlang, searchFile_nil]
  split_ifs at hpick ⊢ with hfile
  · have hfinds : Finds t o root x.request pre base rest base := ⟨h, hallowed, hpick⟩
    rw [hfinds.resolve_eq ho, List.append_assoc]
    exact gives_moved ..
  · have hmiss : Misses t o root x.request pre base rest := ⟨h, .inr ⟨hbase, hpick⟩⟩
    exact hmiss.resolve_result ho

/-- Where the walk stops before a slash at the end, resolution gives the first index file, or the
directory if there is none. -/
theorem Reaches.resolve_slash {pre : List Text} (ho : o.Silent)
    (hlang : o.acceptableLanguages = []) (h : Reaches t o root x.request pre [['/']])
    (hallowed : refuses o.hidden ['/'] = false) :
    match o.directoryIndex.find? fun i => t.isFile (root ++ pre.flatten ++ '/' :: i) with
    | some i => Gives (resolve t o root x) .file (root ++ pre.flatten ++ '/' :: i) []
    | none => Gives (resolve t o root x) .directory (root ++ pre.flatten ++ ['/']) [] := by
  have hpick : pick t o (root ++ pre.flatten) ['/'] (languages o x.request) =
      (o.directoryIndex.find? fun i => t.isFile (root ++ pre.flatten ++ '/' :: i)).map
        ('/' :: ·) := by
    rw [pick, if_pos rfl, languages_eq_nil hlang, searchIndex_nil]
  split
  · rename_i i hfind
    rw [hfind] at hpick
    have hfinds : Finds t o root x.request pre ['/'] [] ('/' :: i) := ⟨h, hallowed, hpick⟩
    rw [hfinds.resolve_eq ho, List.append_assoc]
    exact gives_moved ..
  · rename_i hfind
    rw [hfind] at hpick
    have hdir : EndsInDirectory t o root x.request pre [['/']] :=
      ⟨h, .inr ⟨rfl, hallowed, hpick⟩⟩
    rw [hdir.resolve_eq ho, List.append_assoc]
    exact gives_moved ..

/-- Where nothing is left, resolution gives the directory that was reached. -/
theorem Reaches.resolve_nil {pre : List Text} (ho : o.Silent)
    (h : Reaches t o root x.request pre []) :
    Gives (resolve t o root x) .directory (root ++ pre.flatten) [] := by
  have hdir : EndsInDirectory t o root x.request pre [] := ⟨h, .inl rfl⟩
  rw [hdir.resolve_eq ho, List.take_nil, List.flatten_nil, List.append_nil]
  exact gives_moved ..

/-- **Exact resolution.** A path leads through names that are allowed and not empty, and may end in
a slash. If a name stands behind the greatest depth, resolution gives its file and leaves the rest
of the path untouched, or it fails where there is no such file. If none does, it gives the
directory, or for a slash at the end the first index file in it if there is one. -/
theorem resolve_exactly {tail : Text} (ho : o.Silent) (hlang : o.acceptableLanguages = [])
    (hempty : o.hidden.hides [] = false) (hroot : t.isDirectory root = true)
    (hns : ∀ n ∈ ns, n ≠ [] ∧ PlainName n ∧ o.hidden.hides n = false)
    (htail : tail = [] ∨ tail = ['/']) (hpath : x.request.pathInfo = Path.below ns ++ tail) :
    ∃ j, IsGreatest (depths t root ns) j ∧
      (j < ns.length →
        if t.isFile (root ++ Path.below (ns.take (j + 1))) = true then
          Gives (resolve t o root x) .file (root ++ Path.below (ns.take (j + 1)))
            (Path.below (ns.drop (j + 1)) ++ tail)
        else (resolve t o root x).result = .error (.missing x.request.path)) ∧
      (j = ns.length → tail = ['/'] →
        match o.directoryIndex.find? fun i => t.isFile (root ++ Path.below ns ++ '/' :: i) with
        | some i => Gives (resolve t o root x) .file (root ++ Path.below ns ++ '/' :: i) []
        | none => Gives (resolve t o root x) .directory (root ++ Path.below ns ++ ['/']) []) ∧
      (j = ns.length → tail = [] →
        Gives (resolve t o root x) .directory (root ++ Path.below ns) []) := by
  -- a slash at the end is an empty name
  obtain ⟨ends, hends, hnil, hslash, htail⟩ : ∃ ends : List Text, (∀ n ∈ ends, n = []) ∧
      (tail = [] → ends = []) ∧ (tail = ['/'] → ends = [[]]) ∧ tail = Path.below ends := by
    rcases htail with rfl | rfl
    · exact ⟨[], by simp, by simp, by simp, rfl⟩
    · exact ⟨[[]], by simp, by simp, by simp, rfl⟩
  have hnames : Path.names x.request.pathInfo = ns ++ ends := by
    have hplain : ∀ n ∈ ns ++ ends, '/' ∉ n := by
      intro n hn
      rcases List.mem_append.mp hn with hn | hn
      · exact (hns n hn).2.1.slash
      · simp [hends n hn]
    rw [hpath, htail, ← Path.below_append, Path.names_below hplain]
  have hallowed : ∀ n ∈ ns, n ≠ [] ∧ refuses o.hidden ('/' :: n) = false := fun n hn =>
    ⟨(hns n hn).1, (hns n hn).2.1.refuses_eq_false (hns n hn).2.2⟩
  obtain ⟨j, hj, hreach⟩ := exists_reaches_depth hroot hempty hallowed hends hnames
  refine ⟨j, hj, ?_, ?_, ?_⟩
  · intro hlt
    obtain ⟨hne, hpass⟩ := hallowed ns[j] (List.getElem_mem hlt)
    rw [List.drop_eq_getElem_cons hlt, List.cons_append, List.map_cons] at hreach
    have hname := hreach.resolve_name ho hlang hpass (by simpa using hne)
    rwa [flatten_names, ← Path.append_below_concat, List.take_append_getElem,
      ← Path.below_eq_flatten, Path.below_append, ← htail] at hname
  · rintro rfl hone
    rw [List.take_length, List.drop_length, hslash hone] at hreach
    have hindex := hreach.resolve_slash ho hlang hempty
    rwa [flatten_names] at hindex
  · rintro rfl hnone
    rw [List.take_length, List.drop_length, hnil hnone] at hreach
    have hdir := hreach.resolve_nil ho
    rwa [flatten_names] at hdir

/-- A request for a path below a file. -/
def belowPageExchange : Exchange := { request := .new .get "/page.html.fr/x/" }

theorem resolve_exactly_belowPageExchange :
    Gives (resolve Mount.frenchSetting.tree Mount.bareMount.options "/www" belowPageExchange)
      .file "/www/page.html.fr" "/x/" := by
  have hns : ∀ n ∈ [("page.html.fr" : Text), "x"],
      n ≠ [] ∧ PlainName n ∧ Mount.bareMount.options.hidden.hides n = false := by
    rw [List.forall_mem_cons, List.forall_mem_singleton]
    refine ⟨⟨by decide, ?_, by decide +kernel⟩, ⟨by decide, ?_, by decide +kernel⟩⟩ <;>
      constructor <;> decide
  have hpath : belowPageExchange.request.pathInfo = Path.below ["page.html.fr", "x"] ++ "/" := by
    decide +kernel
  have hroot : Mount.frenchSetting.tree.isDirectory "/www" = true := by decide +kernel
  obtain ⟨j, hj, hname, -, -⟩ := resolve_exactly (o := Mount.bareMount.options) ⟨rfl, rfl, rfl⟩ rfl
    (by decide +kernel) hroot hns (.inr rfl) hpath
  -- the page is no directory, so the walk stops at the root
  obtain rfl : j = 0 := by
    refine hj.unique (isGreatest_depths ⟨Nat.zero_le _, ?_⟩ fun _ => by decide +kernel)
    intro i hi
    rw [Nat.le_zero.mp hi]
    decide +kernel
  have hfile := hname (by decide)
  rw [if_pos (by decide +kernel)] at hfile
  exact hfile

end Webroot.Resolve
