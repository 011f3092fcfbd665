import Mathlib.Control.Monad.Basic
import Webroot.Files.Snapshot
import Webroot.Proofs.Mount.Choice

/-!
# Mount points

A request is mounted by taking the mount point off the start of its path, as a text. What is left is
a path of its own when the mount point is made up of whole names of the path. A mount point that
ends inside a name is taken off as well: of `/filesystem/a.txt` the mount point `/files` leaves
`ystem/a.txt`. Resolution does not see what stands before the first slash of a path info, so such a
request is resolved as the one for `/files/a.txt` is, although its path lies beside the mount point.

Main statements: `respectsNames_iff`, the mount points for which this cannot happen, and
`not_forall_respectsNames`.
-/

namespace Webroot

open Http Text

/-! ### Path infos -/

/-- The exchange with another path info in its request. -/
def Exchange.withPathInfo (x : Exchange) (pathInfo : Text) : Exchange :=
  { x with request := { x.request with pathInfo } }

namespace Resolve

/-- What stands before the first slash of a path is no name in it. -/
theorem names_append_of_not_mem {start rest : Text} (hstart : '/' ∉ start)
    (hrest : rest = [] ∨ Path.isAbsolute rest = true) :
    Path.names (start ++ rest) = Path.names rest := by
  have hnone : Path.names start = [] := by
    rw [Path.names, List.splitOn_eq_singleton hstart, List.tail_cons]
  rcases hrest with rfl | hrest
  · rw [List.append_nil, hnone]
    rfl
  · rw [Path.names_append hrest, hnone, List.nil_append]

/-- Path infos with the same names in them are resolved the same. -/
theorem resolve_withPathInfo (t : FileTree) (o : MountOptions) (root : Text) (x : Exchange)
    {pathInfo : Text} (h : Path.names x.request.pathInfo = Path.names pathInfo) :
    (resolve t o root (x.withPathInfo pathInfo)).result = (resolve t o root x).result ∧
      (resolve t o root (x.withPathInfo pathInfo)).exchange.response =
        (resolve t o root x).exchange.response := by
  have hsegs : segments (x.withPathInfo pathInfo).request.pathInfo =
      segments x.request.pathInfo := by
    rw [segments_eq_map_names, segments_eq_map_names, h]
    rfl
  have hentered : entered root (x.withPathInfo pathInfo) =
      (entered root x).withPathInfo pathInfo := rfl
  -- the first step puts the names that are left in the place of the path info
  have hshift : ∀ (y : Exchange) (name : Text) (rest : List Text) (path : Text),
      shift (y.withPathInfo pathInfo) name rest path = shift y name rest path :=
    fun _ _ _ _ => rfl
  have hpath : ∀ y : Exchange, (y.withPathInfo pathInfo).request.path = y.request.path :=
    fun _ => rfl
  simp only [resolve_eq_descend, hsegs, hentered, descend, hshift, hpath]
  split_ifs
  · exact ⟨rfl, rfl⟩
  · -- the root is no directory, and nothing is walked
    simp only [choose_cons, found, hshift, hpath]
    have hlanguages : languages o ((entered root x).withPathInfo pathInfo).request =
        languages o (entered root x).request := rfl
    rw [hlanguages]
    split
    · exact ⟨rfl, rfl⟩
    · exact ⟨rfl, rfl⟩
  · exact ⟨rfl, rfl⟩

end Resolve

/-! ### Mounting -/

namespace Http.Request

/-- The mount point that a text names: the text without the slashes at its end. -/
def mountPoint (mount : Text) : Text := trimEnd (· == '/') mount

/-- A path **lies below** a mount point when its names begin with those of the mount point. -/
def LiesBelow (point path : Text) : Prop := Path.names point <+: Path.names path

/-- A request is **split at** a mount point when the mount point counts as walked and the rest of
the path, which is empty or starts with a slash, is still to be walked. -/
structure SplitAt (r : Request) (point : Text) : Prop where
  scriptName : r.scriptName = point
  path : r.scriptName ++ r.pathInfo = r.path
  pathInfo : r.pathInfo = [] ∨ Path.isAbsolute r.pathInfo = true

/-- Mounting a request **respects names** when the request is split at the mount point, or else its
path does not lie below the mount point and the request stays as it was. -/
def RespectsNames (r : Request) (mount : Text) : Prop :=
  (r.mountedAt mount).SplitAt (mountPoint mount) ∨
    ¬LiesBelow (mountPoint mount) r.path ∧
      (r.mountedAt mount).scriptName = r.scriptName ∧ (r.mountedAt mount).pathInfo = r.pathInfo

/-- A mount point is empty or starts with a slash, as the text that names it does. -/
theorem mountPoint_absolute {mount : Text} (h : Path.isAbsolute mount = true) :
    mountPoint mount = [] ∨ Path.isAbsolute (mountPoint mount) = true := by
  obtain ⟨slashes, hmount⟩ : mountPoint mount <+: mount := trimEnd_prefix (· == '/') mount
  cases hpoint : mountPoint mount with
  | nil => exact .inl rfl
  | cons c point =>
    rw [hpoint, List.cons_append] at hmount
    rw [← hmount] at h
    exact .inr h

theorem mountedAt_of_append {r : Request} {mount rest : Text}
    (h : r.path = mountPoint mount ++ rest) :
    r.mountedAt mount = { r with scriptName := mountPoint mount, pathInfo := rest } := by
  have hafter : after? (mountPoint mount) r.path = some rest := by
    rw [h, after?_append]
  rw [mountPoint] at hafter ⊢
  simp only [mountedAt, hafter]

theorem mountedAt_eq_self {r : Request} {mount : Text} (h : ¬mountPoint mount <+: r.path) :
    r.mountedAt mount = r := by
  have hafter : after? (mountPoint mount) r.path = none := by
    rw [Option.eq_none_iff_forall_ne_some]
    exact fun rest hrest => h ⟨rest, (eq_append_of_after? hrest).symm⟩
  rw [mountPoint] at hafter
  simp only [mountedAt, hafter]

/-- A path lies below a mount point when it goes on behind it with a slash or not at all. -/
theorem liesBelow_iff {point path : Text} (hpath : Path.isAbsolute path = true)
    (hpoint : point = [] ∨ Path.isAbsolute point = true) :
    LiesBelow point path ↔
      ∃ rest, path = point ++ rest ∧ (rest = [] ∨ Path.isAbsolute rest = true) := by
  constructor
  · rintro ⟨ns, hnames⟩
    refine ⟨Path.below ns, ?_, ?_⟩
    · calc path = Path.below (Path.names point ++ ns) := by
            rw [hnames]
            exact Path.eq_below_names hpath
        _ = point ++ Path.below ns := by
            rw [Path.below_append, ← Path.eq_below_names_iff.mpr hpoint]
    · cases ns with
      | nil => exact .inl rfl
      | cons n ns => exact .inr rfl
  · rintro ⟨rest, rfl, rfl | hrest⟩
    · rw [List.append_nil]
      exact List.prefix_rfl
    · rw [LiesBelow, Path.names_append hrest]
      exact List.prefix_append _ _

/-- A mount point **cuts a name** of a path when the path goes on behind it with more of that name,
`start`, and then with `rest`. -/
structure Cuts (point path start rest : Text) : Prop where
  path : path = point ++ (start ++ rest)
  ne_nil : start ≠ []
  slash : '/' ∉ start
  rest : rest = [] ∨ Path.isAbsolute rest = true

/-- A mount point that a path starts with is one that the path lies below, or it cuts a name. -/
theorem liesBelow_or_cuts {point path : Text} (hpath : Path.isAbsolute path = true)
    (hpoint : point = [] ∨ Path.isAbsolute point = true) (h : point <+: path) :
    LiesBelow point path ∨ ∃ start rest, Cuts point path start rest := by
  obtain ⟨tail, rfl⟩ := h
  obtain ⟨start, hstart, htail⟩ := Path.exists_eq_append_below tail
  have hrest : Path.below (Path.names tail) = [] ∨
      Path.isAbsolute (Path.below (Path.names tail)) = true := by
    cases Path.names tail with
    | nil => exact .inl rfl
    | cons n ns => exact .inr rfl
  by_cases hnil : start = []
  · rw [hnil, List.nil_append] at htail
    exact .inl ((liesBelow_iff hpath hpoint).mpr ⟨tail, rfl, by rw [htail]; exact hrest⟩)
  · exact .inr ⟨start, _, by rw [← htail], hnil, hstart, hrest⟩

/-- What is left of a path behind a name that was cut does not start with a slash. -/
theorem Cuts.not_absolute {point path start rest : Text} (h : Cuts point path start rest) :
    ¬(start ++ rest = [] ∨ Path.isAbsolute (start ++ rest) = true) := by
  obtain ⟨c, start, rfl⟩ := List.exists_cons_of_ne_nil h.ne_nil
  rintro (hnil | habsolute)
  · cases hnil
  · obtain rfl : c = '/' := by simpa [Path.isAbsolute] using habsolute
    exact h.slash List.mem_cons_self

theorem Cuts.not_liesBelow {point path start rest : Text} (h : Cuts point path start rest)
    (hpath : Path.isAbsolute path = true) (hpoint : point = [] ∨ Path.isAbsolute point = true) :
    ¬LiesBelow point path := by
  intro hbelow
  obtain ⟨tail, htail, hinfo⟩ := (liesBelow_iff hpath hpoint).mp hbelow
  rw [h.path] at htail
  rw [← List.append_cancel_left htail] at hinfo
  exact h.not_absolute hinfo

/-- A request with a path of which the mount point cuts a name is resolved as if what is left of the
name were not there. -/
theorem Cuts.resolve_eq {mount path start rest : Text} (h : Cuts (mountPoint mount) path start rest)
    {r : Request} (hr : r.path = path) (t : FileTree) (o : MountOptions) (root : Text)
    {x : Exchange} (hx : x.request = r.mountedAt mount) :
    (resolve t o root x).result = (resolve t o root (x.withPathInfo rest)).result ∧
      (resolve t o root x).exchange.response =
        (resolve t o root (x.withPathInfo rest)).exchange.response := by
  have hnames : Path.names x.request.pathInfo = Path.names rest := by
    rw [hx, mountedAt_of_append (hr.trans h.path)]
    exact Resolve.names_append_of_not_mem h.slash h.rest
  obtain ⟨hresult, hresponse⟩ := Resolve.resolve_withPathInfo t o root x hnames
  exact ⟨hresult.symm, hresponse.symm⟩

/-- **Mount points.** Mounting respects names, for every request for a path, unless the mount point
cuts a name of the path. In that case the request is mounted all the same, and in every file tree it
is resolved as if what is left of the name were not there: as a path below the mount point. -/
theorem respectsNames_iff {path mount : Text} (hpath : Path.isAbsolute path = true)
    (hmount : Path.isAbsolute mount = true) :
    ((∀ r : Request, r.path = path → r.RespectsNames mount) ↔
        ∀ start rest, ¬Cuts (mountPoint mount) path start rest) ∧
      ∀ start rest, Cuts (mountPoint mount) path start rest → ∀ r : Request, r.path = path →
        r.mountedAt mount = { r with scriptName := mountPoint mount, pathInfo := start ++ rest } ∧
          ∀ (t : FileTree) (o : MountOptions) (root : Text) (x : Exchange),
            x.request = r.mountedAt mount →
              (resolve t o root x).result = (resolve t o root (x.withPathInfo rest)).result ∧
                (resolve t o root x).exchange.response =
                  (resolve t o root (x.withPathInfo rest)).exchange.response := by
  have hpoint := mountPoint_absolute hmount
  refine ⟨⟨fun hall start rest hcuts => ?_, ?_⟩, fun start rest hcuts r hr =>
    ⟨mountedAt_of_append (hr.trans hcuts.path), fun t o root x => hcuts.resolve_eq hr t o root⟩⟩
  · -- a request of which nothing has been walked yet
    let r : Request :=
      { id := 0, method := .get, path, queryString := none, fields := ∅, scriptName := [],
        pathInfo := path }
    have hmounted := mountedAt_of_append (r := r) hcuts.path
    rcases hall r rfl with hsplit | ⟨-, hscript, -⟩
    · have hinfo := hsplit.pathInfo
      rw [hmounted] at hinfo
      exact hcuts.not_absolute hinfo
    · rw [hmounted] at hscript
      have hnil : mountPoint mount = [] := hscript
      refine hcuts.not_liesBelow hpath hpoint ?_
      rw [hnil]
      exact List.nil_prefix
  · rintro hnone r rfl
    by_cases hprefix : mountPoint mount <+: r.path
    · rcases liesBelow_or_cuts hpath hpoint hprefix with hbelow | ⟨start, rest, hcuts⟩
      · obtain ⟨rest, hrest, hinfo⟩ := (liesBelow_iff hpath hpoint).mp hbelow
        left
        rw [mountedAt_of_append hrest]
        exact ⟨rfl, hrest.symm, hinfo⟩
      · exact absurd hcuts (hnone start rest)
    · right
      rw [mountedAt_eq_self hprefix]
      refine ⟨fun hbelow => hprefix ?_, rfl, rfl⟩
      obtain ⟨rest, hrest, -⟩ := (liesBelow_iff hpath hpoint).mp hbelow
      exact ⟨rest, hrest.symm⟩

/-- A request for a path beside the directory `/files`. -/
def besideRequest : Request := .new .get "/filesystem/a.txt"

/-- A tree with one file, in the directory that is mounted. -/
def aloneTree : FileTree := .ofFiles ⟨0, 0⟩ [("/www/a.txt", [])]

theorem respectsNames_iff_besideRequest :
    Path.isAbsolute besideRequest.path = true ∧ Path.isAbsolute "/files/" = true ∧
      (¬∀ r : Request, r.path = besideRequest.path → r.RespectsNames "/files/") ∧
      (resolve aloneTree {} "/www" { request := besideRequest.mountedAt "/files/" }).result =
        .ok .file := by
  have hpath : Path.isAbsolute besideRequest.path = true := by decide +kernel
  have hmount : Path.isAbsolute "/files/" = true := by decide
  have hcuts : Cuts (mountPoint "/files/") besideRequest.path "ystem" "/a.txt" :=
    ⟨by decide +kernel, by decide, by decide, .inr (by decide)⟩
  obtain ⟨hrespects, hresolved⟩ := respectsNames_iff hpath hmount
  refine ⟨hpath, hmount, fun hall => hrespects.mp hall _ _ hcuts, ?_⟩
  rw [((hresolved _ _ hcuts besideRequest rfl).2 aloneTree {} "/www" _ rfl).1]
  decide +kernel

/-- It is not so that mounting always respects names: a mount point may be taken off a path beside
it. -/
theorem not_forall_respectsNames :
    ¬∀ (r : Request) (mount : Text), Path.isAbsolute r.path = true →
      Path.isAbsolute mount = true → r.RespectsNames mount := by
  intro h
  have hinfo : (besideRequest.mountedAt "/files").pathInfo = "ystem/a.txt" := by decide +kernel
  have hscript : (besideRequest.mountedAt "/files").scriptName = "/files" := by decide +kernel
  rcases h besideRequest "/files" (by decide +kernel) (by decide) with hsplit | ⟨-, hsame, -⟩
  · have hrest := hsplit.pathInfo
    rw [hinfo] at hrest
    exact absurd hrest (by decide)
  · rw [hscript] at hsame
    cases hsame

end Http.Request

end Webroot
