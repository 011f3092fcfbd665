import Webroot.Proofs.Mount.Answers
import Webroot.Proofs.Mount.DirectoryReached
import Webroot.Proofs.Mount.Entries
import Webroot.Proofs.Mount.Revalidation

/-!
# Names that are listed and names that are found

A listing and a request come to the names of a directory on different ways: the listing reads all of
them and leaves the hidden ones out, and the walk checks one name after another and then looks for a
file. They agree since the walk **enters** every directory that is listed behind a slash
(`Resolve.Enters`): it passes the names of the path, and whatever is asked for behind them is looked
up under the very path that the listing looks up. This holds of the names that are texts; a request
cannot name an entry whose name is none.

What is found need not be answered: the listing looks at a file, and only the request opens it.

Main statements: `Mount.serve_listed`, and `Mount.not_forall_serve_listed` for the file that nobody
may open.
-/

namespace Webroot

open Http

/-- What is a file is no directory. -/
theorem FileTree.isDirectory_eq_false_of_isFile {t : FileTree} {path : Text}
    (h : t.isFile path = true) : t.isDirectory path = false := by
  obtain ⟨item, hitem, hfile⟩ := isFile_iff.mp h
  rw [isDirectory, hitem]
  refine Bool.eq_false_iff.mpr fun hdir => ?_
  rw [Item.isFile_eq_false hdir] at hfile
  cases hfile

/-! ### Beyond a directory -/

namespace Resolve

variable {t : FileTree} {o : MountOptions} {hidden : HiddenNames} {root n : Text} {r : Request}
  {ns : List Text}

/-- The walk from a root **enters** a directory by names when it passes them and may go through a
slash after them. -/
structure Enters (t : FileTree) (hidden : HiddenNames) (root : Text) (ns : List Text) : Prop where
  passes : Passes t hidden root ([] :: ns.map ('/' :: ·)) (root ++ Path.below ns)
  slash : refuses hidden ['/'] = false

/-- A request that ends in a directory behind a slash enters it. -/
theorem EndsInDirectory.enters {pre left : List Text} (h : EndsInDirectory t o root r pre left)
    (hnames : Path.names r.pathInfo = ns ++ [[]]) (hns : ∀ n ∈ ns, n ≠ []) :
    Enters t o.hidden root ns ∧ pre = [] :: ns.map ('/' :: ·) ∧ left = [['/']] := by
  obtain ⟨taken, rest, hsplit, rfl, rfl, htaken, hrest⟩ := h.exists_taken
  rw [hnames] at hsplit
  have hdrop : rest.drop 1 = [] := by
    rw [drop_eq_nil_iff htaken hrest, ← hsplit, List.dropLast_concat]
    exact hns
  have hslash : rest = [[]] := by
    rcases hrest with rfl | ⟨tail, rfl⟩
    · -- the empty name at the end is not passed
      rw [List.append_nil] at hsplit
      exact absurd rfl (htaken [] (by rw [← hsplit]; simp))
    · rw [List.drop_one, List.tail_cons] at hdrop
      rw [hdrop]
  subst hslash
  obtain rfl : ns = taken := List.append_cancel_right hsplit
  have hpasses := h.reaches.passes
  rw [flatten_names] at hpasses
  refine ⟨⟨hpasses, ?_⟩, rfl, rfl⟩
  rcases h.unpicked with hnil | ⟨-, hallowed, -⟩
  · cases hnil
  · exact hallowed

/-- A directory in the one that is entered can be entered too. -/
theorem Enters.child (h : Enters t hidden root ns) (hallowed : refuses hidden ('/' :: n) = false)
    (hn : n ≠ []) (hdir : t.isDirectory (root ++ Path.below (ns ++ [n])) = true) :
    Enters t hidden root (ns ++ [n]) := by
  have hname : ('/' :: n) ≠ ['/'] := by
    intro hslash
    exact hn (List.cons.inj hslash).2
  rw [Path.append_below_concat] at hdir
  refine ⟨?_, h.slash⟩
  rw [Path.append_below_concat, List.map_append, ← List.cons_append]
  exact h.passes.append (.cons hallowed hname hdir (.nil _))

/-- The walk stops behind the directory that is entered before a name that it must not go through or
that leads to no directory. -/
theorem Enters.reaches (h : Enters t o.hidden root ns)
    (hnames : Path.names r.pathInfo = ns ++ [n])
    (hstop : refuses o.hidden ('/' :: n) = true ∨ n = [] ∨
      t.isDirectory (root ++ Path.below (ns ++ [n])) = false) :
    Reaches t o root r ([] :: ns.map ('/' :: ·)) [('/' :: n)] := by
  have hsegs : [] :: segments r.pathInfo = ([] :: ns.map ('/' :: ·)) ++ [('/' :: n)] := by
    rw [segments_eq_map_names, hnames, List.map_append]
    rfl
  refine ⟨hsegs, ?_, ?_⟩
  · rw [flatten_names]
    exact h.passes
  · rw [flatten_names, Stops, ← Path.append_below_concat]
    simpa using hstop

/-- A request for a file in the directory that is entered finds it under its own name. -/
theorem Enters.finds (h : Enters t o.hidden root ns)
    (hnames : Path.names r.pathInfo = ns ++ [n]) (hallowed : refuses o.hidden ('/' :: n) = false)
    (hfile : t.isFile (root ++ Path.below (ns ++ [n])) = true) :
    Finds t o root r ([] :: ns.map ('/' :: ·)) ('/' :: n) [] ('/' :: n) := by
  have hreaches := h.reaches hnames (.inr (.inr (FileTree.isDirectory_eq_false_of_isFile hfile)))
  rw [Path.append_below_concat] at hfile
  have hname : ('/' :: n) ≠ ['/'] := by
    intro hslash
    obtain rfl := (List.cons.inj hslash).2
    rw [t.isFile_eq_false_of_dots _ (.inl rfl)] at hfile
    cases hfile
  refine ⟨hreaches, hallowed, ?_⟩
  -- the segment itself is the first name that is tried
  rw [flatten_names, pick, if_neg hname, searchFile, variants]
  exact List.find?_cons_of_pos hfile

theorem Enters.misses (h : Enters t o.hidden root ns)
    (hnames : Path.names r.pathInfo = ns ++ [n]) (hrefused : refuses o.hidden ('/' :: n) = true) :
    Misses t o root r ([] :: ns.map ('/' :: ·)) ('/' :: n) [] :=
  ⟨h.reaches hnames (.inl hrefused), .inl hrefused⟩

/-- A request for the directory that is entered finds an index file or ends there. -/
theorem Enters.finds_or_endsInDirectory (h : Enters t o.hidden root ns)
    (hnames : Path.names r.pathInfo = ns ++ [[]]) :
    (∃ name, Finds t o root r ([] :: ns.map ('/' :: ·)) ['/'] [] name) ∨
      EndsInDirectory t o root r ([] :: ns.map ('/' :: ·)) [['/']] := by
  have hreaches := h.reaches hnames (.inr (.inl rfl))
  cases hpick : pick t o (root ++ ([] :: ns.map ('/' :: ·)).flatten) ['/'] (languages o r) with
  | some name => exact .inl ⟨name, hreaches, h.slash, hpick⟩
  | none => exact .inr ⟨hreaches, .inr ⟨rfl, h.slash, hpick⟩⟩

end Resolve

/-! ### What is found in a directory that is entered -/

namespace Mount

variable {m : Mount} {s : Setting} {r : Request} {ns : List Text} {n : Text} {item : Item}
  {content : Octets}

theorem enterHome_eq (hhome : m.options.userDir = none) (x : Exchange) :
    m.enterHome x = (m.root, x) := by
  simp only [enterHome, hhome]

section Entered

variable (hm : m.Bare) (hhome : m.options.userDir = none)
  (h : Resolve.Enters s.tree m.options.hidden m.root ns)

include hm hhome h

/-- A request for a file in the directory is handed to that file, with the method, the path and the
fields that it has. -/
theorem exists_servePlain_of_isFile (hnames : Path.names r.pathInfo = ns ++ [n])
    (hallowed : Resolve.refuses m.options.hidden ('/' :: n) = false)
    (hfile : s.tree.isFile (m.root ++ Path.below (ns ++ [n])) = true) :
    ∃ x : Exchange, m.serve s { request := r } =
        servePlain s (m.root ++ Path.below (ns ++ [n])) x ∧
      x.request.method = r.method ∧ x.request.path = r.path ∧
      ∀ name, x.request.field? name = r.field? name := by
  have hhere : m.enterHome { request := r } = (m.root, { request := r }) := enterHome_eq hhome _
  have hfinds := h.finds hnames hallowed hfile
  refine ⟨Resolve.moved m.root { request := r } (Path.below ns ++ '/' :: n) [], ?_, rfl, rfl,
    fun _ => rfl⟩
  rw [serve_of_finds hm (by rw [hhere]; exact hfinds), hhere, Resolve.flatten_names,
    ← List.append_assoc, ← Path.append_below_concat]

section File

variable (hmethod : r.method = .get) (hnames : Path.names r.pathInfo = ns ++ [n])
  (hallowed : Resolve.refuses m.options.hidden ('/' :: n) = false)
  (hitem : s.tree.stat (m.root ++ Path.below (ns ++ [n])) = .ok item) (hfresh : r.Unconditional)
  (hrange : r.field? "range" = none)

include hmethod hnames hallowed hitem hfresh hrange

/-- A file in the directory is sent as a whole. -/
theorem serve_of_file (hnode : item.node = .file content) :
    let answer := m.serve s { request := r }
    answer.result = .ok .ok ∧ answer.exchange.response.status = 200 ∧
      answer.exchange.response.body.send = .ofBytes content := by
  have hfile := FileTree.isFile_iff.mpr ⟨item, hitem, Item.isFile_of_file hnode⟩
  obtain ⟨x, hserve, hmethod', -, hfields⟩ :=
    exists_servePlain_of_isFile hm hhome h hnames hallowed hfile
  rw [← hmethod'] at hmethod
  rw [← hfields] at hrange
  rw [hserve, servePlain, StaticFile.serve_eq_get (.inl hmethod),
    StaticFile.get_of_unconditional hitem (Source.ofItem_of_file hnode)
      (hfresh.congr hfields) hrange]
  exact ⟨rfl, rfl, StaticFile.send_setFile hnode _ _⟩

/-- A file in the directory that cannot be opened is a failure of the server. -/
theorem serve_of_lockedFile (hnode : item.node = .lockedFile) :
    (m.serve s { request := r }).result = .error (.inaccessible r.path) := by
  have hfile := FileTree.isFile_iff.mpr ⟨item, hitem, Item.isFile_iff.mpr (.inr hnode)⟩
  obtain ⟨x, hserve, hmethod', hpath, hfields⟩ :=
    exists_servePlain_of_isFile hm hhome h hnames hallowed hfile
  have hdenied : Source.ofItem item = .error .denied := by
    rw [Source.ofItem, hnode]
  rw [← hmethod'] at hmethod
  rw [← hfields] at hrange
  rw [hserve, servePlain, StaticFile.serve_eq_get (.inl hmethod),
    StaticFile.get_of_unopened hitem hdenied (hfresh.congr hfields) hrange, hpath]
  rfl

end File

/-- The directory itself is found. -/
theorem not_notFound_of_enters (hmethod : r.method = .get)
    (hnames : Path.names r.pathInfo = ns ++ [[]]) :
    ¬NotFound (m.serve s { request := r }).result := by
  have hhere : m.enterHome { request := r } = (m.root, { request := r }) := enterHome_eq hhome _
  rcases h.finds_or_endsInDirectory hnames with ⟨name, hfinds⟩ | hends
  · exact not_notFound_of_finds hm (by rw [hhere]; exact hfinds)
  · rw [notFound_iff_of_endsInDirectory hm (by rw [hhere]; exact hends), hmethod]
    exact Method.noConfusion

/-- A name in the directory that is refused is not found. -/
theorem notFound_of_refuses (hnames : Path.names r.pathInfo = ns ++ [n])
    (hrefused : Resolve.refuses m.options.hidden ('/' :: n) = true) :
    NotFound (m.serve s { request := r }).result := by
  have hhere : m.enterHome { request := r } = (m.root, { request := r }) := enterHome_eq hhome _
  exact notFound_of_misses hm (by rw [hhere]; exact h.misses hnames hrefused)

/-- A directory in the directory is found behind a slash. -/
theorem not_notFound_of_isDirectory (hmethod : r.method = .get)
    (hnames : Path.names r.pathInfo = ns ++ [n, []])
    (hallowed : Resolve.refuses m.options.hidden ('/' :: n) = false) (hne : n ≠ [])
    (hdir : s.tree.isDirectory (m.root ++ Path.below (ns ++ [n])) = true) :
    ¬NotFound (m.serve s { request := r }).result :=
  not_notFound_of_enters hm hhome (h.child hallowed hne hdir) hmethod
    (by rw [hnames, List.append_assoc, List.singleton_append])

end Entered

/-! ### Listings -/

/-- A directory that is answered, but not by a redirect, is listed behind a slash. -/
theorem exists_page_of_serveDirectory {x : Exchange} {dir : Text}
    (hdir : x.response.filename = some dir) (h : (m.serveDirectory s x).result = .ok .ok) :
    Path.endsInSlash x.request.path = true ∧
      ∃ (es shown : List Listing.Entry) (order : Listing.SortOrder) (host : Text),
        Listing.entries s.tree m.options.hidden dir = .ok es ∧ shown.Perm es ∧
        (m.serveDirectory s x).exchange.response.body = .bytes (Utf8.encode
          (Listing.page x.request.path host order (Listing.parent s.tree dir :: shown))) := by
  rw [serveDirectory, hdir, Option.getD_some] at h ⊢
  split_ifs at h ⊢ with hend hindex
  · cases h
  · refine ⟨by simpa using hend, ?_⟩
    cases hes : Listing.entries s.tree m.options.hidden dir with
    | error f =>
      simp only [serveListing, hes] at h
      cases h
    | ok es =>
      have hsorted := Listing.sort_perm es (Listing.sorting x.request.query).1
        (Listing.sorting x.request.query).2
      refine ⟨es, _, (Listing.sorting x.request.query).2, (x.request.host?).getD [], rfl, hsorted,
        ?_⟩
      rw [serveListing_eq hes]
      rfl

/-- A request that ends in a directory and is answered is answered by the directory. -/
theorem serve_eq_serveDirectory {x : Exchange} {pre left : List Text} (hm : m.Bare)
    (h : Resolve.EndsInDirectory s.tree m.options (m.enterHome x).1 (m.enterHome x).2.request
      pre left)
    (hok : (m.serve s x).result = .ok .ok) :
    m.serve s x = m.serveDirectory s (Resolve.moved (m.enterHome x).1 (m.enterHome x).2
        (pre.flatten ++ (left.take 1).flatten) (left.drop 1)) := by
  rw [serve_of_endsInDirectory hm h] at hok ⊢
  cases hmethod : x.request.method with
  | get => rfl
  | head => rfl
  | post =>
    rw [hmethod] at hok
    cases hok
  | options =>
    rw [hmethod] at hok
    cases hok

/-- A request that is answered with a listing enters the directory that its path leads to, and the
page shows the entries of that directory. -/
theorem exists_page_of_serve {x : Exchange} (hm : m.Bare) (hhome : m.options.userDir = none)
    (hpath : x.request.pathInfo = x.request.path)
    (hinner : ∀ n ∈ (Path.names x.request.path).dropLast, n ≠ [])
    (hdirectory : (resolve s.tree m.options m.root x).result = .ok .directory)
    (hlisted : (m.serve s x).result = .ok .ok) :
    ∃ (q : Text) (es shown : List Listing.Entry) (order : Listing.SortOrder) (host : Text),
      let dir := m.root ++ Path.below (Path.names q ++ [[]])
      x.request.path = q ++ ['/'] ∧
      Resolve.Enters s.tree m.options.hidden m.root (Path.names q) ∧
      Listing.entries s.tree m.options.hidden dir = .ok es ∧ shown.Perm es ∧
      (m.serve s x).exchange.response.body = .bytes (Utf8.encode
        (Listing.page x.request.path host order (Listing.parent s.tree dir :: shown))) := by
  have hhere : m.enterHome x = (m.root, x) := enterHome_eq hhome x
  obtain ⟨pre, left, hends⟩ := Resolve.exists_endsInDirectory_of_resolve hm.silent hdirectory
  have hserve := serve_eq_serveDirectory hm (by rw [hhere]; exact hends) hlisted
  rw [hhere] at hserve
  rw [hserve] at hlisted
  obtain ⟨hslash, es, shown, order, host, hes, hshown, hpage⟩ :=
    exists_page_of_serveDirectory rfl hlisted
  obtain ⟨q, hq⟩ : ∃ q, x.request.path = q ++ ['/'] := Path.exists_eq_append_slash hslash
  -- the names before the last slash are those that the walk passes
  have hnames : Path.names x.request.path = Path.names q ++ [[]] := by
    rw [hq]
    exact Path.names_append_slash q []
  rw [hnames, List.dropLast_concat] at hinner
  obtain ⟨henters, rfl, rfl⟩ := hends.enters (by rw [hpath]; exact hnames) hinner
  have hreached : m.root ++ (([] :: (Path.names q).map ('/' :: ·)).flatten ++
      (List.take 1 [['/']]).flatten) = m.root ++ Path.below (Path.names q ++ [[]]) := by
    rw [Resolve.flatten_names, Path.append_below_concat, List.append_assoc]
    rfl
  rw [hreached] at hes hpage
  refine ⟨q, es, shown, order, host, hq, henters, hes, hshown, ?_⟩
  rw [hserve, hpage]
  rfl

/-! ### Requests for what is listed -/

/-- The names in the path of a request for a text behind a slash. -/
theorem names_of_gets {q u : Text} (hgets : r.Gets (q ++ ['/'] ++ u)) :
    Path.names r.pathInfo = Path.names q ++ u.splitOn '/' := by
  rw [hgets.pathInfo, List.append_assoc, List.singleton_append, Path.names_append_slash]

/-- The listing looks a plain name up where a request for it ends. -/
theorem join_below_slash (hplain : PlainName n) (root : Text) (ns : List Text) :
    Path.join (root ++ Path.below (ns ++ [[]])) n = root ++ Path.below (ns ++ [n]) := by
  rw [Path.join_below root _ hplain.isAbsolute_eq_false, ← Path.append_below_concat]

section Listed

variable {q : Text} (hm : m.Bare) (hhome : m.options.userDir = none)
  (h : Resolve.Enters s.tree m.options.hidden m.root (Path.names q)) (hplain : PlainName n)

include hm hhome h hplain

/-- A file that is listed is sent as a whole, or it cannot be opened. -/
theorem serve_of_listedFile {dir : Text} (hdir : dir = m.root ++ Path.below (Path.names q ++ [[]]))
    (hallowed : Resolve.refuses m.options.hidden ('/' :: n) = false)
    (hgets : r.Gets (q ++ ['/'] ++ (Listing.entry n (s.tree.stat (Path.join dir n))).name))
    (hitem : s.tree.stat (Path.join dir n) = .ok item) (hfile : item.isFile = true)
    (hfresh : r.Unconditional) (hrange : r.field? "range" = none) :
    let answer := m.serve s { request := r }
    (∀ content, item.node = .file content →
      answer.result = .ok .ok ∧ answer.exchange.response.status = 200 ∧
        answer.exchange.response.body.send = .ofBytes content) ∧
    (item.node = .lockedFile → answer.result = .error (.inaccessible r.path)) := by
  -- what is a file has no slash behind it
  have hname : (Listing.entry n (s.tree.stat (Path.join dir n))).name = n := by
    rcases Listing.entry_name n (s.tree.stat (Path.join dir n)) with
      ⟨hname, -⟩ | ⟨-, i, hi, hdirectory⟩
    · exact hname
    · obtain rfl := Except.ok.inj (hi.symm.trans hitem)
      rw [Item.isFile_eq_false hdirectory] at hfile
      cases hfile
  have hasked : Path.names r.pathInfo = Path.names q ++ [n] := by
    rw [names_of_gets hgets, hname, List.splitOn_eq_singleton hplain.slash]
  rw [hdir, join_below_slash hplain] at hitem
  exact ⟨fun content hnode => serve_of_file hm hhome h hgets.method hasked hallowed hitem hfresh
      hrange hnode,
    fun hnode => serve_of_lockedFile hm hhome h hgets.method hasked hallowed hitem hfresh hrange
      hnode⟩

/-- What is listed with a slash behind it is found. -/
theorem not_notFound_of_listedSlash {dir : Text}
    (hdir : dir = m.root ++ Path.below (Path.names q ++ [[]])) (hne : n ≠ [])
    (hallowed : Resolve.refuses m.options.hidden ('/' :: n) = false)
    (hgets : r.Gets (q ++ ['/'] ++ (Listing.entry n (s.tree.stat (Path.join dir n))).name))
    (hslash : Path.endsInSlash (Listing.entry n (s.tree.stat (Path.join dir n))).name = true) :
    ¬NotFound (m.serve s { request := r }).result := by
  rcases Listing.entry_name n (s.tree.stat (Path.join dir n)) with
    ⟨hname, -⟩ | ⟨hname, i, hfound, hdirectory⟩
  · rw [hname] at hslash
    obtain ⟨start, rfl⟩ := Path.exists_eq_append_slash hslash
    exact absurd (List.mem_append_right start (List.mem_singleton_self _)) hplain.slash
  · have hasked : Path.names r.pathInfo = Path.names q ++ [n, []] := by
      rw [names_of_gets hgets, hname, List.splitOn_append_cons_self,
        List.splitOn_eq_singleton hplain.slash]
      rfl
    have hchild : s.tree.isDirectory (m.root ++ Path.below (Path.names q ++ [n])) = true := by
      rw [← join_below_slash hplain, ← hdir, FileTree.isDirectory, hfound]
      exact hdirectory
    exact not_notFound_of_isDirectory hm hhome h hgets.method hasked hallowed hne hchild

/-- A hidden name is not found. -/
theorem notFound_of_hides (hhidden : m.options.hidden.hides n = true)
    (hgets : r.Gets (q ++ ['/'] ++ n)) : NotFound (m.serve s { request := r }).result := by
  have hrefused : Resolve.refuses m.options.hidden ('/' :: n) = true := by
    simp [Resolve.refuses_slash, hhidden]
  refine notFound_of_refuses hm hhome h ?_ hrefused
  rw [names_of_gets hgets, List.splitOn_eq_singleton hplain.slash]

end Listed

/-- **Listings and requests agree.** When a request is answered with the listing of a directory, and
no name in its path is empty but the last, the page shows the entries of that directory, one for
each name that is not hidden. A request that gets an entry whose name in the directory is the text
that is shown is answered with the file that the entry leads to, if it leads to one and this can be
opened, and with a failure of the server if it cannot. If a slash stands behind the name, the
request is not told that nothing was found. A hidden name of the directory is not on the page, and a
request that gets it is told that nothing was found. -/
theorem serve_listed {x : Exchange} (hm : m.Bare) (hhome : m.options.userDir = none)
    (ht : s.tree.WellNamed) (hpath : x.request.pathInfo = x.request.path)
    (hinner : ∀ n ∈ (Path.names x.request.path).dropLast, n ≠ [])
    (hdirectory : (resolve s.tree m.options m.root x).result = .ok .directory)
    (hlisted : (m.serve s x).result = .ok .ok) :
    let path := x.request.path
    let dir := m.root ++ Path.below (Path.names path)
    ∃ (names : List Octets) (es shown : List Listing.Entry) (order : Listing.SortOrder)
        (host : Text),
      s.tree.list? dir = some names ∧ Listing.entries s.tree m.options.hidden dir = .ok es ∧
      es = (names.filter fun o => !m.options.hidden.hides (Utf8.decodeLossy o)).map
        (Listing.nameEntry s.tree dir) ∧
      shown.Perm es ∧
      (m.serve s x).exchange.response.body = .bytes (Utf8.encode
        (Listing.page path host order (Listing.parent s.tree dir :: shown))) ∧
      (∀ n : Text, Utf8.encode n ∈ names → m.options.hidden.hides n = false →
        let e := Listing.entry n (s.tree.stat (Path.join dir n))
        e ∈ es ∧ ∀ r : Request, r.Gets (path ++ e.name) →
          let answer := m.serve s { request := r }
          (∀ item, s.tree.stat (Path.join dir n) = .ok item → item.isFile = true →
            r.Unconditional → r.field? "range" = none →
              (∀ content, item.node = .file content →
                answer.result = .ok .ok ∧ answer.exchange.response.status = 200 ∧
                  answer.exchange.response.body.send = .ofBytes content) ∧
              (item.node = .lockedFile → answer.result = .error (.inaccessible r.path))) ∧
          (Path.endsInSlash e.name = true → ¬NotFound answer.result)) ∧
      (∀ o ∈ names, m.options.hidden.hides (Utf8.decodeLossy o) = true →
        (∀ e ∈ es, e.name ≠ Utf8.decodeLossy o ∧ e.name ≠ Utf8.decodeLossy o ++ ['/']) ∧
          ∀ r : Request, r.Gets (path ++ Utf8.decodeLossy o) →
            NotFound (m.serve s { request := r }).result) := by
  intro path dir
  obtain ⟨q, es, shown, order, host, hq, henters, hes, hshown, hpage⟩ :=
    exists_page_of_serve hm hhome hpath hinner hdirectory hlisted
  have hdir : dir = m.root ++ Path.below (Path.names q ++ [[]]) := by
    rw [show dir = m.root ++ Path.below (Path.names x.request.path) from rfl, hq]
    exact congrArg (m.root ++ Path.below ·) (Path.names_append_slash q [])
  rw [← hdir] at hes hpage
  rw [show path = q ++ ['/'] from hq]
  rw [show x.request.path = q ++ ['/'] from hq] at hpage
  obtain ⟨names, hlist, heq⟩ := Listing.entries_eq_ok_iff.mp hes
  refine ⟨names, es, shown, order, host, hlist, hes, heq, hshown, hpage, ?_, ?_⟩
  · intro n hn hkept e
    have hentry := ht.of_mem_list? hlist _ hn
    have hplain : PlainName n := Utf8.decodeLossy_encode n ▸ hentry.plainName
    have hne : n ≠ [] := Utf8.decodeLossy_encode n ▸ hentry.decodeLossy_ne_nil
    have hallowed := hplain.refuses_eq_false hkept
    refine ⟨?_, fun r hgets => ⟨fun item hitem hfile hfresh hrange => ?_, fun hslash => ?_⟩⟩
    · rw [heq]
      refine List.mem_map.mpr ⟨Utf8.encode n, List.mem_filter.mpr ⟨hn, ?_⟩, ?_⟩
      · rw [Utf8.decodeLossy_encode, hkept, Bool.not_false]
      · exact Listing.nameEntry_encode hplain.isAbsolute_eq_false _ _
    · exact serve_of_listedFile hm hhome henters hplain hdir hallowed hgets hitem hfile hfresh
        hrange
    · exact not_notFound_of_listedSlash hm hhome henters hplain hdir hne hallowed hgets hslash
  · intro o ho hhidden
    have hplain := (ht.of_mem_list? hlist o ho).plainName
    exact ⟨Listing.name_ne_of_hides ht hes hplain.slash hhidden,
      fun r hgets => notFound_of_hides hm hhome henters hplain hhidden hgets⟩

/-- A directory with a file, a directory, and a key that is hidden. -/
def shelf : Setting :=
  { tree := .ofFiles ⟨0, 0⟩
      [("/www/50% off?.txt", [0x41]), ("/www/box/note", []), ("/www/secret.key", [])]
    now := ⟨0, 0⟩
    process := 1 }

/-- A mount that lists it. -/
def shelfMount : Mount :=
  { root := "/www", options := { fancyIndexing := true, hidden := ["*.key"] } }

/-- The octets of a request for the file. -/
def shelfOctets : Octets := Utf8.encode "GET /50%25%20off%3F.txt HTTP/1.1\r\n\r\n"

/-- The request that they hold. -/
def shelfRequest : Request := Request.new .get "/50%25%20off%3F.txt"

theorem read_shelfOctets : Request.read shelfOctets 0 = .ok shelfRequest := by
  rfl

theorem serve_listed_shelf :
    (shelfMount.serve shelf { request := shelfRequest }).exchange.response.body.send =
        .ofBytes [0x41] ∧
      ¬NotFound (shelfMount.serve shelf
        { request := .new .get (Url.escapePath "/box/") }).result ∧
      NotFound (shelfMount.serve shelf
        { request := .new .get (Url.escapePath "/secret.key") }).result := by
  have hinner : ∀ n ∈ (Path.names (Request.new .get "/").path).dropLast, n ≠ [] := by
    decide +kernel
  have hdir : shelfMount.root ++ Path.below (Path.names (Request.new .get "/").path) = "/www/" := by
    decide +kernel
  have hlisting : (shelfMount.serve shelf { request := .new .get "/" }).result = .ok .ok := by
    decide +kernel
  obtain ⟨names, es, -, -, -, hlist, hes, -, -, -, hlisted, hhidden⟩ :=
    serve_listed (m := shelfMount) (s := shelf) (x := { request := .new .get "/" })
      ⟨⟨rfl, rfl, rfl⟩, rfl, rfl⟩ rfl (by decide +kernel) rfl hinner (by decide +kernel) hlisting
  dsimp only at hlist hlisted hhidden
  rw [hdir] at hlist hlisted
  have hmem : ∀ o, (shelf.tree.list? "/www/").any (·.contains o) = true → o ∈ names := by
    intro o ho
    rw [hlist] at ho
    simpa using ho
  refine ⟨?_, ?_, ?_⟩
  · have hitem : shelf.tree.stat (Path.join "/www/" "50% off?.txt") =
        .ok { node := .file [0x41], serial := 0, modified := ⟨0, 0⟩ } := by
      decide +kernel
    have hgets : shelfRequest.Gets "/50% off?.txt" :=
      Request.gets_of_read read_shelfOctets rfl (by decide +kernel)
    have hfresh : shelfRequest.Unconditional := by
      constructor <;> decide +kernel
    obtain ⟨-, hanswer⟩ := hlisted "50% off?.txt" (hmem _ (by decide +kernel)) (by decide +kernel)
    rw [hitem] at hanswer
    obtain ⟨hopened, -⟩ := (hanswer shelfRequest hgets).1 _ rfl rfl hfresh (by decide +kernel)
    exact (hopened [0x41] rfl).2.2
  · have hitem : shelf.tree.stat (Path.join "/www/" "box") =
        .ok { node := .directory, serial := 5, modified := ⟨0, 0⟩ } := by
      decide +kernel
    obtain ⟨-, hanswer⟩ := hlisted "box" (hmem _ (by decide +kernel)) (by decide +kernel)
    rw [hitem] at hanswer
    exact (hanswer _ ⟨0, ∅, rfl⟩).2 (by decide)
  · exact (hhidden (Utf8.encode "secret.key") (hmem _ (by decide +kernel)) (by decide +kernel)).2 _
      ⟨0, ∅, rfl⟩

/-- A regular file that is listed need not be sent. -/
theorem not_forall_serve_listed :
    ¬ ∀ (m : Mount) (s : Setting) (x : Exchange), m.Bare → m.options.userDir = none →
      s.tree.WellNamed → x.request.pathInfo = x.request.path →
        (∀ n ∈ (Path.names x.request.path).dropLast, n ≠ []) →
          (resolve s.tree m.options m.root x).result = .ok .directory →
            (m.serve s x).result = .ok .ok →
              let path := x.request.path
              let dir := m.root ++ Path.below (Path.names path)
              ∀ es, Listing.entries s.tree m.options.hidden dir = .ok es → ∀ e ∈ es,
                s.tree.isFile (Path.join dir e.name) = true →
                  ∀ r : Request, r.Gets (path ++ e.name) → r.Unconditional →
                    r.field? "range" = none →
                      let answer := m.serve s { request := r }
                      answer.result = .ok .ok ∧ answer.exchange.response.status = 200 := by
  intro h
  have hinner : ∀ n ∈ (Path.names (Request.new .get "/").path).dropLast, n ≠ [] := by
    decide +kernel
  have hfresh : (Request.new .get "/x").Unconditional := by
    constructor <;> decide +kernel
  have hsent := h shelfMount StaticFile.lockedSetting { request := .new .get "/" }
    ⟨⟨rfl, rfl, rfl⟩, rfl, rfl⟩ rfl (by decide +kernel) rfl hinner (by decide +kernel)
    (by decide +kernel)
    [⟨"x", some ⟨0, 0⟩, 0⟩] (by decide +kernel) _ (List.mem_singleton_self _) (by decide +kernel)
    (.new .get "/x") ⟨0, ∅, rfl⟩ hfresh (by decide +kernel)
  have hfailed : (shelfMount.serve StaticFile.lockedSetting { request := .new .get "/x" }).result =
      .error (.inaccessible "/x") := by
    decide +kernel
  cases hsent.1.symm.trans hfailed

end Mount

end Webroot
