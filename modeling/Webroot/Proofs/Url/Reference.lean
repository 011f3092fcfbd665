import Webroot.Proofs.Files.Names
import Webroot.Proofs.Text.Basic
import Webroot.Proofs.Url.EscapedPath

/-!
# References

A **reference** is what a link says. It is cut into its parts at the separators of RFC 3986
(appendix B) and resolved against a base, the address of the page that holds it (section 5.2).

A **path reference** is the form that a link to a neighbour has to have: the text of a path whose
first segment is not empty and holds no colon (`path-noscheme` in the grammar). It has a path and
nothing else (`ofText_eq`), so it stays with the scheme and the authority of its base, and its path
is put behind that of the base's directory (`resolve_of_directory`). The written form of a text is
the text of a path (`pathText_escapePath`), but a path may hold colons, and with one in its first
segment it is no path reference (`pathReference_escapePath_iff`).

Main statement: `Reference.leadsTo_escapePath`, a written text that is a path reference leads to
what the text names.
-/

namespace Webroot.Url

open Text

/-! ### Paths in references -/

/-- A character that a segment of a path may hold as it is: the unreserved characters, the
sub-delimiters, colon and at sign. -/
def isPathChar (c : Char) : Bool := c.isAlphanum || ("-._~!$&'()*+,;=:@" : Text).contains c

/-- A digit of the two behind a percent sign. -/
def isHexDigit (c : Char) : Bool := ("0123456789ABCDEFabcdef" : Text).contains c

/-- The text of a path: segments of characters and of escapes, with slashes between them. -/
inductive PathText : Text → Prop
  | nil : PathText []
  | char {c : Char} {t : Text} : isPathChar c = true → PathText t → PathText (c :: t)
  | slash {t : Text} : PathText t → PathText ('/' :: t)
  | escape {h l : Char} {t : Text} : isHexDigit h = true → isHexDigit l = true → PathText t →
      PathText ('%' :: h :: l :: t)

/-- A **path reference** is the text of a path whose first segment is neither empty nor to be taken
for a scheme. -/
structure PathReference (t : Text) : Prop where
  pathText : PathText t
  ne_nil : t.takeWhile (· != '/') ≠ []
  colon : ':' ∉ t.takeWhile (· != '/')

/-- The text of a path holds no character that the grammar does not give it. -/
theorem PathText.not_mem {c : Char} {t : Text}
    (hc : isPathChar c = false ∧ isHexDigit c = false ∧ c ≠ '/' ∧ c ≠ '%') (ht : PathText t) :
    c ∉ t := by
  obtain ⟨hchar, hhex, hslash, hpercent⟩ := hc
  have hne : ∀ {d : Char} {p : Char → Bool}, p d = true → p c = false → c ≠ d := by
    rintro d p hd hp rfl
    exact Bool.false_ne_true (hp.symm.trans hd)
  induction ht with
  | nil => exact List.not_mem_nil
  | char h _ ih => simp [hne h hchar, ih]
  | slash _ ih => simp [hslash, ih]
  | escape hh hl _ ih => simp [hpercent, hne hh hhex, hne hl hhex, ih]

theorem isHexDigit_of_capital {c : Char} (h : isCapitalHexDigit c = true) :
    isHexDigit c = true := by
  have hall : ∀ c ∈ ("0123456789ABCDEF" : Text), isHexDigit c = true :=
    List.all_eq_true.mp (by decide)
  exact hall c (List.contains_iff_mem.mp h)

/-- A character that needs no escape is one of a segment, or a slash. -/
theorem isPathChar_of_plain {c : Char}
    (h : c.isAlphanum = true ∨ c ∈ ("-._~!$'()*+,=:@/" : Text)) :
    isPathChar c = true ∨ c = '/' := by
  have hall : ∀ c ∈ ("-._~!$'()*+,=:@/" : Text), (isPathChar c || c == '/') = true :=
    List.all_eq_true.mp (by decide)
  rcases h with h | h
  · rw [isPathChar, h, Bool.true_or]
    exact .inl rfl
  · simpa using hall c h

theorem EscapedPath.pathText {t : Text} (h : EscapedPath t) : PathText t := by
  induction h with
  | nil => exact .nil
  | plain hc _ ih =>
    rcases isPathChar_of_plain hc with hchar | rfl
    · exact .char hchar ih
    · exact .slash ih
  | escape hh hl _ ih => exact .escape (isHexDigit_of_capital hh) (isHexDigit_of_capital hl) ih

/-- The written form of a text is the text of a path. -/
theorem pathText_escapePath (t : Text) : PathText (escapePath t) :=
  (escapedPath_escapePath t).pathText

/-! ### References and their parts -/

/-- The parts of a reference. -/
structure Reference where
  scheme : Option Text := none
  authority : Option Text := none
  path : Text := []
  query : Option Text := none
  fragment : Option Text := none
  deriving DecidableEq, Repr

namespace Reference

/-- What stands before the first separator, and what stands behind it if there is one. -/
def split (sep : Char) (t : Text) : Text × Option Text :=
  match cut sep t with
  | some (a, b) => (a, some b)
  | none => (t, none)

/-- The scheme, which ends in the first colon unless that stands behind a slash, and the rest. -/
def splitScheme (t : Text) : Option Text × Text :=
  match cut ':' t with
  | some (scheme, rest) =>
    if scheme.isEmpty || scheme.contains '/' then (none, t) else (some scheme, rest)
  | none => (none, t)

/-- The authority, which stands between two slashes in front and the next slash, and the rest. -/
def splitAuthority (t : Text) : Option Text × Text :=
  match after? "//" t with
  | some rest => (some (rest.takeWhile (· != '/')), rest.dropWhile (· != '/'))
  | none => (none, t)

/-- The parts of a reference as it is written. -/
def ofText (t : Text) : Reference :=
  let beforeFragment := split '#' t
  let beforeQuery := split '?' beforeFragment.1
  let afterScheme := splitScheme beforeQuery.1
  let afterAuthority := splitAuthority afterScheme.2
  { scheme := afterScheme.1
    authority := afterAuthority.1
    path := afterAuthority.2
    query := beforeQuery.2
    fragment := beforeFragment.2 }

/-! ### Resolution -/

/-- Whether a name is dots, which stand for the directory itself or for the one above. -/
def IsDots (n : Text) : Prop := n = ['.'] ∨ n = ['.', '.']

instance (n : Text) : Decidable (IsDots n) := inferInstanceAs (Decidable (_ ∨ _))

/-- The names of a path after one more name: dots stay or go up. -/
def pushName (ns : List Text) (n : Text) : List Text :=
  if n = ['.'] then ns else if n = ['.', '.'] then ns.dropLast else ns ++ [n]

/-- The names of a path after dots were taken out. Dots at the end leave an empty name there. -/
def cleanNames (ns : List Text) : List Text :=
  let ms := ns.foldl pushName []
  if ns.getLast?.any (IsDots ·) then ms ++ [[]] else ms

/-- A path without dots. A path that does not start with a slash is kept as it is. -/
def removeDots (p : Text) : Text :=
  if Path.isAbsolute p then Path.below (cleanNames (Path.names p)) else p

/-- A path up to its last slash, and then another path. -/
def merge (base path : Text) : Text := trimEnd (· != '/') base ++ path

/-- What a reference means on a page whose address has a path that starts with a slash. -/
def resolve (base r : Reference) : Reference :=
  match r.scheme, r.authority with
  | some _, _ => { r with path := removeDots r.path }
  | none, some _ => { r with scheme := base.scheme, path := removeDots r.path }
  | none, none =>
    if r.path.isEmpty then
      { base with query := r.query.or base.query, fragment := r.fragment }
    else
      { base with
        path := removeDots (if Path.isAbsolute r.path then r.path else merge base.path r.path)
        query := r.query
        fragment := r.fragment }

/-! ### Path references are nothing but paths -/

theorem split_of_not_mem {sep : Char} {t : Text} (h : sep ∉ t) : split sep t = (t, none) := by
  rw [split, cut_eq_none h]

/-- A colon behind the first segment ends no scheme. -/
theorem splitScheme_eq {t : Text} (h : ':' ∉ t.takeWhile (· != '/')) :
    splitScheme t = (none, t) := by
  by_cases hcolon : ':' ∈ t
  · obtain ⟨a, b, rfl, ha⟩ := List.eq_append_cons_of_mem hcolon
    have hslash : '/' ∈ a := by
      by_contra hno
      rw [takeWhile_append hno] at h
      exact h (List.mem_append_right a List.mem_cons_self)
    have hcontains : (a.isEmpty || a.contains '/') = true := by
      rw [List.contains_iff_mem.mpr hslash, Bool.or_true]
    simp only [splitScheme, cut_append_cons ha, hcontains, if_true]
  · rw [splitScheme, cut_eq_none hcolon]

/-- Two slashes in front are no first segment. -/
theorem splitAuthority_eq {t : Text} (h : t.takeWhile (· != '/') ≠ []) :
    splitAuthority t = (none, t) := by
  cases t with
  | nil => exact absurd rfl h
  | cons c t =>
    have hc : '/' ≠ c := by
      rintro rfl
      exact h rfl
    have hafter : after? "//" (c :: t) = none := if_neg hc
    rw [splitAuthority, hafter]

/-- A path reference has a path and nothing else. -/
theorem ofText_eq {t : Text} (h : PathReference t) : ofText t = { path := t } := by
  have hfragment : '#' ∉ t := h.pathText.not_mem (by decide)
  have hquery : '?' ∉ t := h.pathText.not_mem (by decide)
  simp only [ofText, split_of_not_mem hfragment, split_of_not_mem hquery, splitScheme_eq h.colon,
    splitAuthority_eq h.ne_nil]

/-! ### Path references on the page of a directory -/

theorem foldl_pushName {ns : List Text} (h : ∀ n ∈ ns, ¬IsDots n) (start : List Text) :
    ns.foldl pushName start = start ++ ns := by
  induction ns generalizing start with
  | nil => rw [List.foldl_nil, List.append_nil]
  | cons n ns ih =>
    obtain ⟨hn, hns⟩ := List.forall_mem_cons.mp h
    have hpush : pushName start n = start ++ [n] := by
      rw [pushName, if_neg fun hdot => hn (.inl hdot), if_neg fun hdots => hn (.inr hdots)]
    rw [List.foldl_cons, hpush, ih hns, List.append_assoc, List.singleton_append]

/-- Names without dots stand behind what is left of those before them. -/
theorem cleanNames_append {ms : List Text} (hms : ms ≠ []) (h : ∀ n ∈ ms, ¬IsDots n)
    (ns : List Text) : cleanNames (ns ++ ms) = ns.foldl pushName [] ++ ms := by
  have hlast : (ns ++ ms).getLast?.any (IsDots ·) = false := by
    obtain ⟨m, hm⟩ := Option.ne_none_iff_exists'.mp (mt List.getLast?_eq_none_iff.mp hms)
    have hnot : ¬IsDots m := h m (List.mem_of_getLast? hm)
    rw [List.getLast?_append_of_ne_nil _ hms, hm]
    simpa using hnot
  simp only [cleanNames, hlast, List.foldl_append, foldl_pushName h]
  rfl

/-- The names of the directory that a path with a slash at its end denotes. -/
def directory (p : Text) : List Text := (Path.names p).dropLast.foldl pushName []

theorem directory_append_slash (q : Text) :
    directory (q ++ ['/']) = (Path.names q).foldl pushName [] := by
  have hnames : Path.names (q ++ ['/']) = Path.names q ++ [[]] := Path.names_append_slash q []
  rw [directory, hnames, List.dropLast_concat]

theorem isAbsolute_append {q : Text} (h : Path.isAbsolute (q ++ ['/']) = true) (t : Text) :
    Path.isAbsolute (q ++ '/' :: t) = true := by
  cases q with
  | nil => rfl
  | cons c q => exact h

variable {p : Text}

/-- What stands behind the slash of a directory stays there when it holds no dots. -/
theorem removeDots_append (habsolute : Path.isAbsolute p = true)
    (hslash : Path.endsInSlash p = true) {t : Text} (ht : ∀ n ∈ t.splitOn '/', ¬IsDots n) :
    removeDots (p ++ t) = Path.below (directory p) ++ '/' :: t := by
  obtain ⟨q, rfl⟩ := Path.exists_eq_append_slash hslash
  have hjoin : (q ++ ['/']) ++ t = q ++ '/' :: t := by rw [List.append_assoc]; rfl
  rw [hjoin, removeDots, if_pos (isAbsolute_append habsolute t), Path.names_append_slash,
    cleanNames_append (List.splitOn_ne_nil '/' t) ht, Path.below_append, Path.below_splitOn,
    directory_append_slash]

/-- Two dots behind the slash of a directory denote the directory above. -/
theorem removeDots_append_dots (habsolute : Path.isAbsolute p = true)
    (hslash : Path.endsInSlash p = true) :
    removeDots (p ++ ['.', '.']) = Path.below (directory p).dropLast ++ ['/'] := by
  obtain ⟨q, rfl⟩ := Path.exists_eq_append_slash hslash
  have hjoin : (q ++ ['/']) ++ ['.', '.'] = q ++ '/' :: ['.', '.'] := by rw [List.append_assoc]; rfl
  have hsplit : (['.', '.'] : Text).splitOn '/' = [['.', '.']] := by decide
  have hclean : cleanNames (Path.names q ++ [['.', '.']]) =
      ((Path.names q).foldl pushName []).dropLast ++ [[]] := by
    simp only [cleanNames, List.getLast?_concat, List.foldl_append]
    rfl
  rw [hjoin, removeDots, if_pos (isAbsolute_append habsolute _), Path.names_append_slash, hsplit,
    hclean, directory_append_slash, Path.below_append]
  rfl

/-- The directory that a path without dots denotes. -/
theorem below_directory (habsolute : Path.isAbsolute p = true)
    (hslash : Path.endsInSlash p = true) (hp : ∀ n ∈ Path.names p, ¬IsDots n) :
    Path.below (directory p) ++ ['/'] = p := by
  obtain ⟨q, rfl⟩ := Path.exists_eq_append_slash hslash
  have hnames : Path.names (q ++ ['/']) = Path.names q ++ [[]] := Path.names_append_slash q []
  have hq : ∀ n ∈ Path.names q, ¬IsDots n := by
    intro n hn
    exact hp n (by rw [hnames]; exact List.mem_append_left _ hn)
  have hpath := Path.eq_below_names habsolute
  rw [directory_append_slash, foldl_pushName hq, List.nil_append]
  rw [hnames, Path.below_append] at hpath
  exact hpath.symm

/-- On the page of a directory a path reference leads below that directory. -/
theorem resolve_of_directory {base : Reference} (hslash : Path.endsInSlash base.path = true)
    {t : Text} (ht : PathReference t) :
    base.resolve (ofText t) =
      { base with path := removeDots (base.path ++ t), query := none, fragment := none } := by
  obtain ⟨q, hq⟩ := Path.exists_eq_append_slash hslash
  have hne : t.isEmpty = false := by
    rw [List.isEmpty_eq_false_iff]
    rintro rfl
    exact ht.ne_nil rfl
  have hrelative : Path.isAbsolute t = false := by
    cases t with
    | nil => rfl
    | cons c t =>
      have hc : c ≠ '/' := by
        rintro rfl
        exact ht.ne_nil rfl
      simpa [Path.isAbsolute] using hc
  have hmerge : merge base.path t = base.path ++ t := by
    simp [merge, trimEnd, hq]
  simp only [ofText_eq ht, resolve, hne, hrelative, hmerge]
  rfl

end Reference

/-! ### Written texts as path references -/

theorem escapePath_append (s t : Text) : escapePath (s ++ t) = escapePath s ++ escapePath t := by
  rw [escapePath, Utf8.encode_append, List.flatMap_append]
  rfl

theorem slash_mem_escapePath_iff (t : Text) : '/' ∈ escapePath t ↔ '/' ∈ t :=
  mem_escapePath_iff (by decide) t

/-- The first segment of a written text is that of the text, written. -/
theorem takeWhile_escapePath (t : Text) :
    (escapePath t).takeWhile (· != '/') = escapePath (t.takeWhile (· != '/')) := by
  induction t with
  | nil => rfl
  | cons c t ih =>
    by_cases hc : c = '/'
    · subst hc
      rw [escapePath_slash]
      rfl
    · have hwritten : '/' ∉ escapePath [c] := by
        intro hslash
        exact hc (List.mem_singleton.mp ((slash_mem_escapePath_iff [c]).mp hslash)).symm
      have hcons : ∀ u, escapePath (c :: u) = escapePath [c] ++ escapePath u :=
        escapePath_append [c]
      rw [hcons, takeWhile_append hwritten, ih, ← hcons,
        List.takeWhile_cons_of_pos (by simpa using hc)]

/-- A written text is a path reference exactly when no colon stands in its first segment. -/
theorem pathReference_escapePath_iff {t : Text} (h : t.takeWhile (· != '/') ≠ []) :
    PathReference (escapePath t) ↔ ':' ∉ t.takeWhile (· != '/') := by
  rw [← not_iff_not.mpr (mem_escapePath_iff (c := ':') (by decide) (t.takeWhile (· != '/'))),
    ← takeWhile_escapePath]
  constructor
  · exact PathReference.colon
  · intro hcolon
    refine ⟨pathText_escapePath t, ?_, hcolon⟩
    rw [takeWhile_escapePath]
    exact escapePath_ne_nil h

theorem escapePath_below (ns : List Text) :
    escapePath (Path.below ns) = Path.below (ns.map escapePath) := by
  induction ns with
  | nil => rfl
  | cons n ns ih =>
    rw [Path.below_cons, escapePath_slash, escapePath_append, ih]
    rfl

/-- The pieces of a written text between slashes are those of the text, written. -/
theorem splitOn_escapePath (t : Text) :
    (escapePath t).splitOn '/' = (t.splitOn '/').map escapePath := by
  have hslash : ∀ n ∈ (t.splitOn '/').map escapePath, '/' ∉ n := by
    intro n hn
    obtain ⟨m, hm, rfl⟩ := List.mem_map.mp hn
    exact mt (slash_mem_escapePath_iff m).mp (Path.not_mem_of_mem_splitOn hm)
  rw [← Path.names_cons_slash, ← escapePath_slash, ← Path.below_splitOn, escapePath_below,
    Path.names_below hslash]

theorem isDots_escapePath_iff (n : Text) :
    Reference.IsDots (escapePath n) ↔ Reference.IsDots n := by
  have hdot : escapePath ['.'] = ['.'] := by decide +kernel
  have hdots : escapePath ['.', '.'] = ['.', '.'] := by decide +kernel
  have hiff : ∀ {m : Text}, escapePath m = m → (escapePath n = m ↔ n = m) := by
    intro m hm
    nth_rewrite 1 [← hm]
    exact escapePath_injective.eq_iff
  rw [Reference.IsDots, Reference.IsDots, hiff hdot, hiff hdots]

/-! ### Where a link leads -/

namespace Reference

/-- The decoded path of the directory of a page, with a slash at its end. -/
def directoryPath (base : Reference) : Text := unescape (Path.below (directory base.path) ++ ['/'])

/-- The decoded path of the directory above that of a page; the root is its own parent. -/
def parentPath (base : Reference) : Text :=
  unescape (Path.below (directory base.path).dropLast ++ ['/'])

/-- A link on a page **leads to** a path when it is a path reference, and means the address with
that path under the scheme and the authority of the page. -/
def LeadsTo (base : Reference) (link path : Text) : Prop :=
  PathReference link ∧ ∃ written, unescape written = path ∧
    base.resolve (ofText link) = { base with path := written, query := none, fragment := none }

variable {base : Reference}

/-- A page whose path holds no dots is in the directory that its path denotes. -/
theorem directoryPath_eq (habsolute : Path.isAbsolute base.path = true)
    (hslash : Path.endsInSlash base.path = true) (hdots : ∀ n ∈ Path.names base.path, ¬IsDots n) :
    base.directoryPath = unescape base.path := by
  rw [directoryPath, below_directory habsolute hslash hdots]

/-- Two dots lead to the directory above. -/
theorem leadsTo_dots (habsolute : Path.isAbsolute base.path = true)
    (hslash : Path.endsInSlash base.path = true) : base.LeadsTo ['.', '.'] base.parentPath := by
  have hlink : PathReference ['.', '.'] :=
    { pathText := .char (by decide) (.char (by decide) .nil)
      ne_nil := List.cons_ne_nil _ _
      colon := by decide }
  refine ⟨hlink, _, rfl, ?_⟩
  rw [resolve_of_directory hslash hlink, removeDots_append_dots habsolute hslash]

/-- The written form of a text without dots leads to what the text names below the directory of
the page, if it is a path reference. -/
theorem leadsTo_escapePath (habsolute : Path.isAbsolute base.path = true)
    (hslash : Path.endsInSlash base.path = true) {t : Text} (hlink : PathReference (escapePath t))
    (hdots : ∀ n ∈ t.splitOn '/', ¬IsDots n) :
    base.LeadsTo (escapePath t) (base.directoryPath ++ t) := by
  have hpieces : ∀ n ∈ (escapePath t).splitOn '/', ¬IsDots n := by
    rw [splitOn_escapePath]
    intro n hn
    obtain ⟨m, hm, rfl⟩ := List.mem_map.mp hn
    exact mt (isDots_escapePath_iff m).mp (hdots m hm)
  have hread : unescape (Path.below (directory base.path) ++ '/' :: escapePath t) =
      base.directoryPath ++ t := by
    rw [directoryPath, unescape_append_slash, unescape_append_slash, unescape_escapePath,
      List.append_assoc]
    rfl
  refine ⟨hlink, _, hread, ?_⟩
  rw [resolve_of_directory hslash hlink, removeDots_append habsolute hslash hpieces]

end Reference

end Webroot.Url
