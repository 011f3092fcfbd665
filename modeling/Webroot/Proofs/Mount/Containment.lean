import Mathlib.Control.Monad.Basic
import Webroot.Files.Snapshot
import Webroot.Mount.Service
import Webroot.Proofs.Files.Dots
import Webroot.Proofs.Mount.Choice

/-!
# Containment

Resolution never leaves the root directory: the local path it finds is the root and then **plain**
names, each of which leads one step down. The names that were walked are plain because all others
are refused. A name that was picked in place of a segment is plain for two reasons: its characters
come from the segment, the index names and the languages, and it cannot be dots since dots lead to
no file (`FileTree.isFile_eq_false_of_dots`).

Main statement: `resolve_contained`, for resolution and for the plain file that is served after it.
-/

namespace Webroot

/-- A name is **plain** when it holds no slash and no NUL and is no dots. -/
structure PlainName (n : Text) : Prop where
  slash : '/' ∉ n
  nul : '\x00' ∉ n
  dot : n ≠ ['.']
  dots : n ≠ ['.', '.']

instance (n : Text) : Decidable (PlainName n) :=
  decidable_of_iff ('/' ∉ n ∧ '\x00' ∉ n ∧ n ≠ ['.'] ∧ n ≠ ['.', '.'])
    ⟨fun h => ⟨h.1, h.2.1, h.2.2.1, h.2.2.2⟩, fun h => ⟨h.slash, h.nul, h.dot, h.dots⟩⟩

theorem plainName_nil : PlainName [] := by
  constructor <;> simp

/-- A name without a slash that the walk may go through is plain. -/
theorem plainName_of_allowed {hidden : HiddenNames} {n : Text} (hslash : '/' ∉ n)
    (h : Resolve.refuses hidden ('/' :: n) = false) : PlainName n := by
  obtain ⟨hdot, hdots, hnul, -⟩ := Resolve.refuses_slash_eq_false.mp h
  exact ⟨hslash, hnul, hdot, hdots⟩

/-- The walk may go through a plain name that is not hidden. -/
theorem PlainName.refuses_eq_false {hidden : HiddenNames} {n : Text} (h : PlainName n)
    (hkept : hidden.hides n = false) : Resolve.refuses hidden ('/' :: n) = false :=
  Resolve.refuses_slash_eq_false.mpr ⟨h.dot, h.dots, h.nul, hkept⟩

theorem PlainName.isAbsolute_eq_false {n : Text} (h : PlainName n) : Path.isAbsolute n = false := by
  rw [Path.isAbsolute, beq_eq_false_iff_ne]
  intro hhead
  obtain ⟨k, rfl⟩ := List.head?_eq_some_iff.mp hhead
  exact h.slash List.mem_cons_self

namespace Resolve

open Http

variable {t : FileTree} {o : MountOptions} {root : Text} {r : Request} {x : Exchange}

/-! ### Names that are walked or picked -/

/-- A character other than a dot comes into a picked name from the segment, an index name or a
language. -/
theorem not_mem_of_pick {here n n' : Text} {c : Char} (hc : c ≠ '.') (hn : c ∉ n)
    (hindex : ∀ i ∈ o.directoryIndex, c ∉ i) (hlang : ∀ l ∈ o.acceptableLanguages, c ∉ l)
    (h : pick t o here ('/' :: n) (languages o r) = some ('/' :: n')) : c ∉ n' := by
  obtain ⟨stem, m, hm, hstem, hvariant⟩ := exists_name_of_pick h
  obtain rfl : n' = m := (List.cons.inj hm).2
  have hfree : c ∉ stem := by
    rcases hstem with rfl | hi
    · exact hn
    · exact hindex stem hi
  rcases hvariant with rfl | ⟨l, hl, rfl⟩
  · exact hfree
  · have hcl : c ∉ l := hlang l (mem_acceptable_of_mem_languages hl)
    simp [hfree, hc, hcl]

/-- A picked name is neither empty nor dots. -/
theorem ne_dots_of_pick {here base n : Text} {ls : List Text}
    (h : pick t o here base ls = some ('/' :: n)) : n ≠ [] ∧ n ≠ ['.'] ∧ n ≠ ['.', '.'] := by
  have hfile := (pick_eq_some h).1
  have hdots : ¬(n = [] ∨ n = ['.'] ∨ n = ['.', '.']) := by
    intro hn
    rw [t.isFile_eq_false_of_dots here hn] at hfile
    exact Bool.false_ne_true hfile
  simpa only [not_or] using hdots

/-- The names that the walk passes are plain and not empty. -/
theorem Reaches.plain_names {taken rest left : List Text}
    (h : Reaches t o root r ([] :: taken.map ('/' :: ·)) left)
    (hnames : Path.names r.pathInfo = taken ++ rest) : ∀ n ∈ taken, PlainName n ∧ n ≠ [] := by
  intro n hn
  obtain ⟨hallowed, hne⟩ := h.allowed_names n hn
  have hslash : '/' ∉ n :=
    Path.slash_not_mem_of_mem_names (by rw [hnames]; exact List.mem_append_left rest hn)
  exact ⟨plainName_of_allowed hslash hallowed, hne⟩

/-! ### What is found lies below the root -/

/-- The file found is at plain names below the root. -/
theorem Finds.exists_names {pre rest : List Text} {base name : Text}
    (hroot : t.isDirectory root = true)
    (hindex : ∀ i ∈ o.directoryIndex, '/' ∉ i ∧ '\x00' ∉ i)
    (hlang : ∀ l ∈ o.acceptableLanguages, '/' ∉ l ∧ '\x00' ∉ l)
    (h : Finds t o root r pre base rest name) :
    ∃ ns, pre.flatten ++ name = Path.below ns ∧ ∀ n ∈ ns, PlainName n ∧ n ≠ [] := by
  rcases h.eq_nil_or_exists_names with ⟨-, -, hno⟩ | ⟨taken, n, tail, hnames, rfl, rfl⟩
  · -- a file is found for the root itself only where the root is no directory
    rw [hroot] at hno
    cases hno
  · obtain ⟨stem, n', rfl, -⟩ := exists_name_of_pick h.picked
    have hn : '/' ∉ n := Path.slash_not_mem_of_mem_names (by rw [hnames]; simp)
    obtain ⟨-, -, hnul, -⟩ := refuses_slash_eq_false.mp h.allowed
    obtain ⟨hne, hdot, hdots⟩ := ne_dots_of_pick h.picked
    have hplain : PlainName n' :=
      { slash := not_mem_of_pick (by decide) hn (fun i hi => (hindex i hi).1)
          (fun l hl => (hlang l hl).1) h.picked
        nul := not_mem_of_pick (by decide) hnul (fun i hi => (hindex i hi).2)
          (fun l hl => (hlang l hl).2) h.picked
        dot := hdot
        dots := hdots }
    -- the names walked and then the one picked, whatever was asked for in its place
    refine ⟨taken ++ [n'], by simp [Path.below_eq_flatten], ?_⟩
    intro m hm
    rcases List.mem_append.mp hm with hm | hm
    · exact h.reaches.plain_names hnames m hm
    · rw [List.mem_singleton.mp hm]
      exact ⟨hplain, hne⟩

/-- The directory in which a request ends is at plain names below the root. -/
theorem EndsInDirectory.exists_names {pre left : List Text}
    (h : EndsInDirectory t o root r pre left) :
    ∃ ns, pre.flatten ++ (left.take 1).flatten = Path.below ns ∧ ∀ n ∈ ns, PlainName n := by
  rcases h.reaches.eq_nil_or_exists_names with
    ⟨-, hleft, hstop⟩ | ⟨taken, rest, hnames, rfl, hleft⟩
  · -- the root itself is no lone slash
    rcases h.unpicked with hnil | ⟨hhead, -⟩
    · rw [hleft] at hnil
      cases hnil
    · rw [hleft] at hhead
      cases hhead
  · have hplain : ∀ n ∈ taken, PlainName n := fun n hn => (h.reaches.plain_names hnames n hn).1
    rcases h.unpicked with rfl | ⟨hhead, -⟩
    · exact ⟨taken, by simp [Path.below_eq_flatten], hplain⟩
    · -- the lone slash without an index file is an empty name
      obtain ⟨tail, rfl⟩ := List.head?_eq_some_iff.mp hhead
      refine ⟨taken ++ [[]], by simp [Path.below_eq_flatten], ?_⟩
      intro m hm
      rcases List.mem_append.mp hm with hm | hm
      · exact hplain m hm
      · rw [List.mem_singleton.mp hm]
        exact plainName_nil

/-- Where resolution succeeds, the local path is at plain names below the root. -/
theorem exists_names_of_resolve {res : Resolved} (ho : o.Silent)
    (hroot : t.isDirectory root = true)
    (hindex : ∀ i ∈ o.directoryIndex, '/' ∉ i ∧ '\x00' ∉ i)
    (hlang : ∀ l ∈ o.acceptableLanguages, '/' ∉ l ∧ '\x00' ∉ l)
    (h : (resolve t o root x).result = .ok res) :
    ∃ ns, (resolve t o root x).exchange.response.filename = some (root ++ Path.below ns) ∧
      ∀ n ∈ ns, PlainName n ∧ (n = [] → res = .directory) := by
  rcases finds_or_endsInDirectory_or_misses t o root x.request with
    ⟨pre, base, rest, name, hfinds⟩ | ⟨pre, left, hdir⟩ | ⟨pre, base, rest, hmiss⟩
  · obtain ⟨ns, hns, hplain⟩ := hfinds.exists_names hroot hindex hlang
    rw [hfinds.resolve_eq ho, hns]
    exact ⟨ns, rfl, fun n hn => ⟨(hplain n hn).1, fun hnil => absurd hnil (hplain n hn).2⟩⟩
  · obtain ⟨ns, hns, hplain⟩ := hdir.exists_names
    rw [hdir.resolve_eq ho] at h ⊢
    rw [hns]
    exact ⟨ns, rfl, fun n hn => ⟨hplain n hn, fun _ => (Except.ok.inj h).symm⟩⟩
  · rw [hmiss.resolve_result ho] at h
    cases h

end Resolve

/-! ### Plain files -/

namespace Mount

open Http

/-- A file for which there is no handler is served as a plain file from the path that resolution
found. -/
theorem execute_eq_servePlain {m : Mount} {s : Setting} {root path : Text} {x : Exchange}
    (ho : m.options.Silent) (hresult : (resolve s.tree m.options root x).result = .ok .file)
    (hpath : (resolve s.tree m.options root x).exchange.response.filename = some path)
    (hhandler : HandlerTable.choose m.options.handlers m.globalHandlers
      (resolve s.tree m.options root x).exchange.request.scriptName = none) :
    m.execute s root x =
      let answer := servePlain s path (resolve s.tree m.options root x).exchange
      ⟨answer.result.map some, answer.exchange⟩ := by
  simp only [execute, hresult, hhandler, ho.handler, Exchange.call, hpath, Option.getD_some]

/-- **Containment.** When the root is a directory and no index name or language holds a slash or a
NUL, resolution finds nothing but plain names below the root, the last of which is empty only for a
directory; and a file for which there is no handler is served from such a path. -/
theorem resolve_contained {m : Mount} {s : Setting} {root : Text} {x : Exchange}
    (ho : m.options.Silent) (hroot : s.tree.isDirectory root = true)
    (hindex : ∀ i ∈ m.options.directoryIndex, '/' ∉ i ∧ '\x00' ∉ i)
    (hlang : ∀ l ∈ m.options.acceptableLanguages, '/' ∉ l ∧ '\x00' ∉ l) :
    (∀ res, (resolve s.tree m.options root x).result = .ok res →
      ∃ ns, (resolve s.tree m.options root x).exchange.response.filename =
          some (root ++ Path.below ns) ∧
        ∀ n ∈ ns, PlainName n ∧ (n = [] → res = .directory)) ∧
    ((resolve s.tree m.options root x).result = .ok .file →
      HandlerTable.choose m.options.handlers m.globalHandlers
        (resolve s.tree m.options root x).exchange.request.scriptName = none →
      ∃ ns, (∀ n ∈ ns, PlainName n ∧ n ≠ []) ∧
        m.execute s root x =
          let answer := servePlain s (root ++ Path.below ns)
            (resolve s.tree m.options root x).exchange
          ⟨answer.result.map some, answer.exchange⟩) := by
  refine ⟨fun res hres => Resolve.exists_names_of_resolve ho hroot hindex hlang hres, ?_⟩
  intro hfile hhandler
  obtain ⟨ns, hpath, hplain⟩ := Resolve.exists_names_of_resolve ho hroot hindex hlang hfile
  refine ⟨ns, ?_, execute_eq_servePlain ho hfile hpath hhandler⟩
  intro n hn
  exact ⟨(hplain n hn).1, fun hnil => Resolved.noConfusion ((hplain n hn).2 hnil)⟩

/-- A setting with an index and a page that are there in French only. -/
def frenchSetting : Setting :=
  { tree := .ofFiles ⟨0, 0⟩ [("/www/index.html.fr", [0x41]), ("/www/page.html.fr", [0x42])]
    now := ⟨0, 0⟩
    process := 1 }

/-- A mount that serves it. -/
def frenchMount : Mount := { root := "/www", options := { acceptableLanguages := ["fr"] } }

theorem resolve_contained_frenchMount :
    (resolve frenchSetting.tree frenchMount.options "/www" ⟨.new .get "/%2F", {}, []⟩).result =
        .ok .file ∧
      ∃ ns, (resolve frenchSetting.tree frenchMount.options "/www"
          ⟨.new .get "/%2F", {}, []⟩).exchange.response.filename =
            some ("/www" ++ Path.below ns) ∧
        ∀ n ∈ ns, PlainName n ∧ (n = [] → Resolved.file = .directory) := by
  have hfile : (resolve frenchSetting.tree frenchMount.options "/www"
      ⟨.new .get "/%2F", {}, []⟩).result = .ok .file := by
    decide +kernel
  refine ⟨hfile, (resolve_contained ⟨rfl, rfl, rfl⟩ ?_ ?_ ?_).1 .file hfile⟩
  · decide +kernel
  · decide
  · decide

end Mount

end Webroot
