import Mathlib.Data.List.Infix
import Webroot.Proofs.Files.Names

/-!
# Paths in normal form

An absolute path is in **normal form** when no two of its slashes stand side by side and no name in
it is a single dot. It may go up by two dots, and it may end in a slash.

Making a path absolute takes it apart into its components and joins them again. A path in normal
form comes out of this as it went in, whatever the working directory: between its slashes there is
nothing that is left out.

Main statement: `absolute_of_normal`.
-/

namespace Webroot.Path

/-- An absolute path is in **normal form** when no name before its last slash is empty and none at
all is a single dot. -/
structure Normal (p : Text) : Prop where
  absolute : isAbsolute p = true
  ne_nil : ∀ n ∈ (names p).dropLast, n ≠ []
  ne_dot : ['.'] ∉ names p

instance (p : Text) : Decidable (Normal p) :=
  decidable_of_iff
    (isAbsolute p = true ∧ (∀ n ∈ (names p).dropLast, n ≠ []) ∧ ['.'] ∉ names p)
    ⟨fun h => ⟨h.1, h.2.1, h.2.2⟩, fun h => ⟨h.absolute, h.ne_nil, h.ne_dot⟩⟩

/-! ### Joining names one by one -/

theorem isAbsolute_eq_false {n : Text} (h : '/' ∉ n) : isAbsolute n = false := by
  cases n with
  | nil => rfl
  | cons c n =>
    have hc : '/' ≠ c := (List.ne_and_not_mem_of_not_mem_cons h).1
    simp [isAbsolute, hc.symm]

/-- A path ends in a slash when its last name is empty. -/
theorem endsInSlash_below_concat (ns : List Text) {n : Text} (h : '/' ∉ n) :
    endsInSlash (below (ns ++ [n])) = n.isEmpty := by
  have hbelow : below (ns ++ [n]) = below ns ++ '/' :: n := append_below_concat [] ns n
  rw [hbelow]
  cases n with
  | nil => simp [endsInSlash]
  | cons c n =>
    have hlast : (c :: n).getLast (List.cons_ne_nil c n) ≠ '/' := by
      intro heq
      exact h (heq ▸ List.getLast_mem _)
    simpa [endsInSlash, List.getLast?_eq_some_getLast] using hlast

/-- A name is joined to a path with a slash between them. -/
theorem join_below_concat (ns : List Text) {a n : Text} (ha : a ≠ []) (hslash : '/' ∉ a)
    (hn : '/' ∉ n) : join (below (ns ++ [a])) n = below (ns ++ [a] ++ [n]) := by
  have hend : endsInSlash (below (ns ++ [a])) = false := by
    rw [endsInSlash_below_concat ns hslash]
    simpa using ha
  have hne : (below (ns ++ [a])).isEmpty = false := by simp [below_eq_nil_iff]
  rw [join, isAbsolute_eq_false hn, hend, hne, Bool.or_false, if_neg Bool.false_ne_true,
    if_neg Bool.false_ne_true, below_append _ [n], below_cons, below_nil, List.append_nil]

/-- Names joined to a path one by one make up the path that leads through them. -/
theorem foldl_join_below (ns : List Text) {a : Text} (ha : a ≠ []) (hslash : '/' ∉ a)
    {cs : List Text} (hcs : ∀ c ∈ cs, c ≠ [] ∧ '/' ∉ c) :
    cs.foldl join (below (ns ++ [a])) = below (ns ++ [a] ++ cs) := by
  induction cs generalizing ns a with
  | nil => rw [List.foldl_nil, List.append_nil]
  | cons c cs ih =>
    obtain ⟨⟨hc, hcslash⟩, hcs⟩ := List.forall_mem_cons.mp hcs
    rw [List.foldl_cons, join_below_concat ns ha hslash hcslash, ih (ns ++ [a]) hc hcslash hcs,
      List.append_assoc _ [c] cs, List.singleton_append]

/-- Names joined to the root one by one. -/
theorem foldl_join_root {cs : List Text} (hcs : ∀ c ∈ cs, c ≠ [] ∧ '/' ∉ c) :
    cs.foldl join ['/'] = if cs = [] then ['/'] else below cs := by
  cases cs with
  | nil => rfl
  | cons c cs =>
    obtain ⟨⟨hc, hcslash⟩, hcs⟩ := List.forall_mem_cons.mp hcs
    have hfirst : join ['/'] c = below ([] ++ [c]) := by
      rw [join, isAbsolute_eq_false hcslash]
      simp [endsInSlash]
    rw [List.foldl_cons, hfirst, foldl_join_below [] hc hcslash hcs, if_neg (List.cons_ne_nil c cs)]
    rfl

/-! ### Paths that stay as they are -/

/-- The components of an absolute path are its names, but for the empty ones and the dots. -/
theorem components_of_isAbsolute {p : Text} (h : isAbsolute p = true) :
    components p = (names p).filter fun n => !n.isEmpty && n != ['.'] := by
  obtain ⟨q, rfl⟩ : ∃ q, p = '/' :: q := by
    cases p with
    | nil => cases h
    | cons c q =>
      obtain rfl : c = '/' := by simpa [isAbsolute] using h
      exact ⟨q, rfl⟩
  rw [components, names_cons_slash, List.splitOn_cons_eq_if_modifyHead]
  simp

/-- No two slashes stand in front of a path in normal form. -/
theorem Normal.after?_slashes {p : Text} (h : Normal p) : Text.after? "//" p = none := by
  rw [Option.eq_none_iff_forall_ne_some]
  intro rest hrest
  have hp : p = '/' :: ([] ++ '/' :: rest) := Text.eq_append_of_after? hrest
  have hempty : [] ∈ (names p).dropLast := by
    rw [hp, names_cons_slash, List.splitOn_append_cons_self,
      List.dropLast_append_of_ne_nil (List.splitOn_ne_nil '/' rest)]
    exact List.mem_append_left _ List.mem_cons_self
  exact h.ne_nil [] hempty rfl

/-- A path in normal form leads through names, none of them empty or a dot, to a last name, which
may be empty. -/
theorem Normal.exists_eq_below {p : Text} (h : Normal p) :
    ∃ ns n, p = below (ns ++ [n]) ∧ (∀ m ∈ ns, m ≠ [] ∧ m ≠ ['.'] ∧ '/' ∉ m) ∧ n ≠ ['.'] ∧
      '/' ∉ n := by
  have hnames : names p ≠ [] := by
    intro hnil
    have hempty : p = [] := by rw [eq_below_names h.absolute, hnil, below_nil]
    rw [hempty] at h
    cases h.absolute
  have hconcat := List.dropLast_concat_getLast hnames
  have hdot : ∀ m ∈ names p, m ≠ ['.'] := by
    rintro m hm rfl
    exact h.ne_dot hm
  refine ⟨(names p).dropLast, (names p).getLast hnames, ?_, ?_,
    hdot _ (List.getLast_mem hnames), slash_not_mem_of_mem_names (List.getLast_mem hnames)⟩
  · rw [hconcat]
    exact eq_below_names h.absolute
  · intro m hm
    have hmem := List.mem_of_mem_dropLast hm
    exact ⟨h.ne_nil m hm, hdot m hmem, slash_not_mem_of_mem_names hmem⟩

/-- **Normal form.** Making a path in normal form absolute leaves it as it is. -/
theorem absolute_of_normal (workingDirectory : Text) {p : Text} (h : Normal p) :
    absolute workingDirectory p = p := by
  obtain ⟨ns, n, hp, hns, hdot, hslash⟩ := h.exists_eq_below
  have hkept : ns.filter (fun m => !m.isEmpty && m != ['.']) = ns := by
    rw [List.filter_eq_self]
    intro m hm
    obtain ⟨hne, hne', -⟩ := hns m hm
    simp [hne, hne']
  have hslashes : ∀ m ∈ ns ++ [n], '/' ∉ m := by
    intro m hm
    rcases List.mem_append.mp hm with hm | hm
    · exact (hns m hm).2.2
    · rwa [List.mem_singleton.mp hm]
  have hcomponents : components p = ns ++ if n = [] then [] else [n] := by
    rw [components_of_isAbsolute h.absolute, hp, names_below hslashes, List.filter_append, hkept]
    by_cases hn : n = []
    · simp [hn]
    · simp [hn, hdot]
  have hend : endsInSlash p = n.isEmpty := by
    rw [hp, endsInSlash_below_concat ns hslash]
  have hnames : ∀ m ∈ ns, m ≠ [] ∧ '/' ∉ m := fun m hm => ⟨(hns m hm).1, (hns m hm).2.2⟩
  have hjoined : absolute workingDirectory p =
      if n.isEmpty then join ((components p).foldl join ['/']) []
      else (components p).foldl join ['/'] := by
    have hne : p.isEmpty = false := by
      rw [hp, below_append]
      simp
    rw [absolute, hne, h.absolute, h.after?_slashes, hend]
    rfl
  rw [hjoined, hcomponents]
  by_cases hn : n = []
  · -- the slash at the end is put back, unless it is the one that stands for the root
    subst hn
    rw [if_pos List.isEmpty_nil, if_pos rfl, List.append_nil, foldl_join_root hnames, hp]
    rcases ns.eq_nil_or_concat' with rfl | ⟨ms, m, rfl⟩
    · rfl
    · obtain ⟨hm, -, hmslash⟩ := hns m (List.mem_append_right _ List.mem_cons_self)
      rw [if_neg (by simp)]
      exact join_below_concat ms hm hmslash List.not_mem_nil
  · have hall : ∀ m ∈ ns ++ [n], m ≠ [] ∧ '/' ∉ m := by
      intro m hm
      refine ⟨?_, hslashes m hm⟩
      rcases List.mem_append.mp hm with hm | hm
      · exact (hnames m hm).1
      · rwa [List.mem_singleton.mp hm]
    rw [if_neg (by simpa using hn), if_neg hn, foldl_join_root hall, if_neg (by simp), hp]

end Webroot.Path
