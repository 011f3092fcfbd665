import Webroot.Proofs.Mount.PageMarkup
import Webroot.Proofs.Url.Reference

/-!
# The links of a listing

The page of a listing links to every entry by the written form of its name. The written form of a
name that holds a colon is not read as a path, though: what stands before the colon is a scheme,
and `javascript:alert(1)` is a script.

Here the links are read off the page (`Listing.links_page`), and each of them is read as a reference
and resolved. Main statements: `serveListing_links`, which says which links lead to their entries
and where, and `not_forall_links_relative`.
-/

namespace Webroot

open Text

/-! ### Links in markup -/

namespace Page

/-- Of the pieces of markup between quotation marks, those that are the value of a link: every
second piece is quoted, and before a link stands the name of its attribute. -/
def linksAmong : List Text → List Text
  | before :: value :: rest =>
    if ("HREF=" : Text).isSuffixOf before then value :: linksAmong rest else linksAmong rest
  | _ => []

/-- The links in markup that holds quotation marks only around the values of attributes. -/
def links (markup : Text) : List Text := linksAmong (markup.splitOn '"')

theorem links_of_not_mem {t : Text} (h : '"' ∉ t) : links t = [] := by
  rw [links, List.splitOn_eq_singleton h]
  rfl

/-- The first quoted value is read apart from what follows it. -/
theorem links_quoted {before value : Text} (hbefore : '"' ∉ before) (hvalue : '"' ∉ value)
    (rest : Text) :
    links (before ++ '"' :: (value ++ '"' :: rest)) =
      if ("HREF=" : Text).isSuffixOf before then value :: links rest else links rest := by
  rw [links, List.splitOn_append_cons_self, List.splitOn_append_cons_self,
    List.splitOn_eq_singleton hbefore, List.splitOn_eq_singleton hvalue]
  rfl

/-- A link is read apart from what follows it. -/
theorem links_link {before value : Text} (hbefore : '"' ∉ before) (hvalue : '"' ∉ value)
    (rest : Text) :
    links (before ++ ("<A HREF=\"" ++ (value ++ '"' :: rest))) = value :: links rest := by
  have hopen : before ++ ("<A HREF=\"" ++ (value ++ '"' :: rest)) =
      (before ++ "<A HREF=") ++ '"' :: (value ++ '"' :: rest) := by
    rw [List.append_assoc]
    rfl
  have hname : '"' ∉ before ++ "<A HREF=" := by
    rw [List.mem_append, not_or]
    exact ⟨hbefore, by decide⟩
  have hlink : ("HREF=" : Text).isSuffixOf (before ++ "<A HREF=") = true := by
    rw [List.isSuffixOf_iff_suffix]
    exact ⟨before ++ "<A ", by rw [List.append_assoc]; rfl⟩
  rw [hopen, links_quoted hname hvalue, if_pos hlink]

/-- Escaped text holds no quotation mark. -/
theorem quote_not_mem_escape (t : Text) : '"' ∉ escape t := (inert_iff.mp (inert_escape t)).2.2

end Page

/-! ### The page of a listing -/

namespace Listing

theorem quote_not_mem_escapePath (t : Text) : '"' ∉ Url.escapePath t :=
  (Url.tame_escapePath t).not_mem rfl

theorem quote_not_mem_spaces (n : Text) (k : Nat) (h : '"' ∉ n) : '"' ∉ n ++ spaces k := by
  rw [List.mem_append, not_or]
  exact ⟨h, (tame_spaces k).not_mem rfl⟩

theorem quote_not_mem_shownTime (i : Option Instant) : '"' ∉ shownTime i :=
  (tame_shownTime i).not_mem rfl

theorem quote_not_mem_shownSize (size : Int) : '"' ∉ shownSize size :=
  (tame_shownSize size).not_mem rfl

/-- What follows the link in the line for an entry. -/
def lineRest (e : Entry) : Text :=
  let shown := shownName e.name
  ">" ++ (Page.escape shown ++ "</A>" ++ spaces (columnWidth - shown.length) ++
    shownTime e.modified ++ shownSize e.size ++ "\n")

theorem line_eq (e : Entry) :
    line e = " " ++ ("<A HREF=\"" ++ (Url.escapePath e.name ++ '"' :: lineRest e)) := by
  have hopen : (" <A HREF=\"" : Text) = " " ++ "<A HREF=\"" := by decide
  have hclose : ("\">" : Text) = '"' :: ">" := by decide
  unfold line lineRest
  simp only [hopen, hclose, List.append_assoc, List.cons_append]

theorem quote_not_mem_lineRest (e : Entry) : '"' ∉ lineRest e := by
  have hspaces := quote_not_mem_spaces [] (columnWidth - (shownName e.name).length) List.not_mem_nil
  rw [List.nil_append] at hspaces
  simp [lineRest, Page.quote_not_mem_escape, hspaces, quote_not_mem_shownTime,
    quote_not_mem_shownSize]

/-- Every line links to its entry. -/
theorem links_lines {before foot : Text} (hbefore : '"' ∉ before) (hfoot : '"' ∉ foot)
    (es : List Entry) :
    Page.links (before ++ (es.flatMap line ++ foot)) = es.map fun e => Url.escapePath e.name := by
  induction es generalizing before with
  | nil =>
    refine Page.links_of_not_mem ?_
    simp [hbefore, hfoot]
  | cons e es ih =>
    have hblank : '"' ∉ before ++ " " := by
      simp [hbefore]
    have hline : before ++ ((e :: es).flatMap line ++ foot) =
        (before ++ " ") ++ ("<A HREF=\"" ++ (Url.escapePath e.name ++
          '"' :: (lineRest e ++ (es.flatMap line ++ foot)))) := by
      simp only [List.flatMap_cons, line_eq, List.append_assoc, List.cons_append]
    rw [hline, Page.links_link hblank (quote_not_mem_escapePath e.name),
      ih (quote_not_mem_lineRest e), List.map_cons]

/-- What the headings link to. -/
def headingLinks (order : SortOrder) : List Text :=
  ["?N=" ++ order.letter, "?M=" ++ order.letter, "?S=" ++ order.letter]

theorem links_headings {before : Text} (hbefore : '"' ∉ before) (order : SortOrder) (rest : Text) :
    Page.links (before ++ (headings order ++ rest)) =
      headingLinks order ++ Page.links (">Size</A>\n<HR>\n" ++ rest) := by
  have hletter : ∀ start : Text, '"' ∉ start → '"' ∉ start ++ order.letter := by
    intro start hstart
    rw [List.mem_append, not_or]
    refine ⟨hstart, ?_⟩
    cases order <;> decide
  have hheadings : headings order ++ rest =
      " " ++ ("<A HREF=\"" ++ (("?N=" ++ order.letter) ++ '"' ::
        (">Name</A>" ++ spaces 26 ++ ("<A HREF=\"" ++ (("?M=" ++ order.letter) ++ '"' ::
          (">Last modified</A>" ++ spaces 9 ++ ("<A HREF=\"" ++ (("?S=" ++ order.letter) ++
            '"' :: (">Size</A>\n<HR>\n" ++ rest))))))))) := by
    have hname : (" <A HREF=\"?N=" : Text) = " " ++ ("<A HREF=\"" ++ "?N=") := by decide
    have hmodified : ("<A HREF=\"?M=" : Text) = "<A HREF=\"" ++ "?M=" := by decide
    have hsize : ("<A HREF=\"?S=" : Text) = "<A HREF=\"" ++ "?S=" := by decide
    have hname' : ("\">Name</A>" : Text) = '"' :: ">Name</A>" := by decide
    have hmodified' : ("\">Last modified</A>" : Text) = '"' :: ">Last modified</A>" := by decide
    have hsize' : ("\">Size</A>\n<HR>\n" : Text) = '"' :: ">Size</A>\n<HR>\n" := by decide
    unfold headings
    simp only [hname, hmodified, hsize, hname', hmodified', hsize', List.append_assoc,
      List.cons_append]
  rw [hheadings, ← List.append_assoc before]
  rw [Page.links_link (by simp [hbefore]) (hletter _ (by decide)),
    Page.links_link (quote_not_mem_spaces _ _ (by decide)) (hletter _ (by decide)),
    Page.links_link (quote_not_mem_spaces _ _ (by decide)) (hletter _ (by decide))]
  rfl

/-- What follows the document type at the start of the page. -/
def bodyStart (path : Text) : Text :=
  let title := Page.escape path
  ">\n<HTML>\n  <HEAD><TITLE>Index of " ++ (title ++
    ("</TITLE></HEAD>\n  <BODY>\n    <H1>Index of " ++ (title ++ "</H1>\n<PRE>\n")))

theorem links_pageHead (path rest : Text) :
    Page.links (pageHead path ++ rest) = Page.links (bodyStart path ++ rest) := by
  have hhead : pageHead path ++ rest =
      "<!DOCTYPE HTML PUBLIC " ++ '"' :: ("-//W3C//DTD HTML 3.2 Final//EN" ++ '"' ::
        (bodyStart path ++ rest)) := by
    have hstart :
      ("<!DOCTYPE HTML PUBLIC \"-//W3C//DTD HTML 3.2 Final//EN\">\n<HTML>\n  <HEAD><TITLE>Index of "
          : Text) =
        "<!DOCTYPE HTML PUBLIC " ++ '"' :: ("-//W3C//DTD HTML 3.2 Final//EN" ++
          '"' :: ">\n<HTML>\n  <HEAD><TITLE>Index of ") := by
      decide
    unfold pageHead bodyStart
    simp only [hstart, List.append_assoc, List.cons_append]
  have hnolink : ("HREF=" : Text).isSuffixOf "<!DOCTYPE HTML PUBLIC " = false := by decide
  rw [hhead, Page.links_quoted (by decide) (by decide), hnolink]
  rfl

/-- The page links to the orders, and to each entry by the written form of its name. -/
theorem links_page (path host : Text) (order : SortOrder) (es : List Entry) :
    Page.links (page path host order es) =
      headingLinks order.reversed ++ es.map fun e => Url.escapePath e.name := by
  have hstart : '"' ∉ bodyStart path := by
    have htitle := Page.quote_not_mem_escape path
    unfold bodyStart
    simp only [List.mem_append, not_or]
    exact ⟨by decide, htitle, by decide, htitle, by decide⟩
  have hfoot : '"' ∉ pageFoot host := by
    unfold pageFoot
    simp only [List.mem_append, not_or]
    exact ⟨⟨⟨⟨by decide, Page.quote_not_mem_escape _⟩, by decide⟩, Page.quote_not_mem_escape _⟩,
      by decide⟩
  rw [page, List.append_assoc, List.append_assoc, links_pageHead, links_headings hstart,
    links_lines (by decide) hfoot]

end Listing

/-! ### Where the links lead -/

open Http Url

namespace Listing

variable {t : FileTree} {hidden : HiddenNames} {dir : Text} {es : List Entry} {e : Entry}

/-- The name of an entry has one segment, and perhaps a slash behind it. -/
theorem exists_segment_of_mem_entries (ht : t.WellNamed) (hes : entries t hidden dir = .ok es)
    (he : e ∈ es) :
    ∃ n, n ≠ [] ∧ e.name.takeWhile (· != '/') = n ∧ (':' ∈ n ↔ ':' ∈ e.name) ∧
      ∀ m ∈ e.name.splitOn '/', ¬Reference.IsDots m := by
  obtain ⟨o, hentry, -, rfl⟩ := exists_name_of_mem_entries ht hes he
  have hplain := hentry.plainName
  have hne := hentry.decodeLossy_ne_nil
  rw [nameEntry]
  generalize Utf8.decodeLossy o = n at hplain hne ⊢
  have hn : ¬Reference.IsDots n := not_or.mpr ⟨hplain.dot, hplain.dots⟩
  have hempty : ¬Reference.IsDots [] := by decide
  have hfirst : ∀ tail : Text, tail.takeWhile (· != '/') = [] →
      (n ++ tail).takeWhile (· != '/') = n := by
    intro tail htail
    rw [Text.takeWhile_append hplain.slash, htail, List.append_nil]
  refine ⟨n, hne, ?_⟩
  rcases entry_name n (lookup t dir o) with ⟨hname, -⟩ | ⟨hname, -⟩
  · rw [hname, List.splitOn_eq_singleton hplain.slash]
    refine ⟨?_, Iff.rfl, by simpa using hn⟩
    simpa using hfirst [] rfl
  · rw [hname, List.splitOn_append_cons_self, List.splitOn_eq_singleton hplain.slash]
    exact ⟨hfirst ['/'] rfl, by simp, by simpa using ⟨hn, hempty⟩⟩

/-- The link to an entry is a path reference exactly when there is no colon in the name. -/
theorem pathReference_iff (ht : t.WellNamed) (hes : entries t hidden dir = .ok es) (he : e ∈ es) :
    PathReference (escapePath e.name) ↔ ':' ∉ e.name := by
  obtain ⟨n, hne, hfirst, hcolon, -⟩ := exists_segment_of_mem_entries ht hes he
  rw [pathReference_escapePath_iff (by rwa [hfirst]), hfirst, hcolon]

/-- A link that is a path reference leads to the name of the entry below the directory. -/
theorem leadsTo_entry {base : Reference} (ht : t.WellNamed) (hes : entries t hidden dir = .ok es)
    (habsolute : Path.isAbsolute base.path = true) (hslash : Path.endsInSlash base.path = true)
    (he : e ∈ es) (hcolon : ':' ∉ e.name) :
    base.LeadsTo (escapePath e.name) (base.directoryPath ++ e.name) := by
  obtain ⟨n, -, -, -, hdots⟩ := exists_segment_of_mem_entries ht hes he
  have hlink := (pathReference_iff ht hes he).mpr hcolon
  exact Reference.leadsTo_escapePath habsolute hslash hlink hdots

end Listing

/-- **Links of a listing.** The page links to the parent and to every entry. The link to an entry is
a reference to a path exactly when there is no colon in its name. On a page whose address has a path
with a slash at its end such a link leads to the name below the directory of the page, and the link
to the parent leads to the directory above. -/
theorem serveListing_links {t : FileTree} {hidden : HiddenNames} {request : Request}
    {response : Response} {dir : Text} {es : List Listing.Entry} (ht : t.WellNamed)
    (hes : Listing.entries t hidden dir = .ok es) :
    ∃ (page : Text) (order : Listing.SortOrder) (shown : List Listing.Entry),
      serveListing t hidden request response dir =
        ⟨.ok .ok, (response.setStatus 200).setPage page⟩ ∧
      shown.Perm es ∧
      Page.links page = Listing.headingLinks order ++
        ['.', '.'] :: shown.map (fun e => escapePath e.name) ∧
      (∀ e ∈ es, PathReference (escapePath e.name) ↔ ':' ∉ e.name) ∧
      ∀ base : Reference, Path.isAbsolute base.path = true → Path.endsInSlash base.path = true →
        base.LeadsTo ['.', '.'] base.parentPath ∧
        (∀ e ∈ es, ':' ∉ e.name →
          base.LeadsTo (escapePath e.name) (base.directoryPath ++ e.name)) ∧
        ((∀ n ∈ Path.names base.path, ¬Reference.IsDots n) →
          base.directoryPath = unescape base.path) := by
  have hdots : escapePath ['.', '.'] = ['.', '.'] := by decide +kernel
  refine ⟨_, (Listing.sorting request.query).2.reversed,
    Listing.sort es (Listing.sorting request.query).1 (Listing.sorting request.query).2,
    serveListing_eq hes request response, Listing.sort_perm es _ _, ?_, ?_, ?_⟩
  · rw [Listing.links_page, List.map_cons, ← hdots]
    rfl
  · intro e he
    exact Listing.pathReference_iff ht hes he
  · intro base habsolute hslash
    refine ⟨Reference.leadsTo_dots habsolute hslash, ?_, ?_⟩
    · intro e he hcolon
      exact Listing.leadsTo_entry ht hes habsolute hslash he hcolon
    · intro hpath
      exact Reference.directoryPath_eq habsolute hslash hpath

/-- A directory with a plain file and one that is named like a script. -/
def scriptTree : FileTree :=
  .ofFiles ⟨0, 0⟩ [("/www/a b.txt", [0x41]), ("/www/javascript:alert(1)", [])]

/-- The entry for the file that is named like a script. -/
def scriptEntry : Listing.Entry := ⟨"javascript:alert(1)", some ⟨0, 0⟩, 0⟩

theorem wellNamed_scriptTree : scriptTree.WellNamed := by
  decide +kernel

theorem entries_scriptTree :
    Listing.entries scriptTree [] "/www" = .ok [⟨"a b.txt", some ⟨0, 0⟩, 1⟩, scriptEntry] := by
  decide +kernel

theorem serveListing_links_scriptTree :
    (∀ base : Reference, Path.isAbsolute base.path = true → Path.endsInSlash base.path = true →
        base.LeadsTo (escapePath "a b.txt") (base.directoryPath ++ "a b.txt")) ∧
      ¬PathReference (escapePath "javascript:alert(1)") := by
  obtain ⟨-, -, -, -, -, -, hrelative, hleads⟩ := @serveListing_links scriptTree [] (.new .get "/")
    {} "/www" _ wellNamed_scriptTree entries_scriptTree
  constructor
  · intro base habsolute hslash
    obtain ⟨-, hentries, -⟩ := hleads base habsolute hslash
    exact hentries ⟨"a b.txt", some ⟨0, 0⟩, 1⟩ List.mem_cons_self (by decide)
  · intro hlink
    have hmem : scriptEntry ∈ [⟨"a b.txt", some ⟨0, 0⟩, 1⟩, scriptEntry] := by simp
    exact (hrelative scriptEntry hmem).mp hlink (by decide)

/-- A link of a listing may be no reference to a path, but an address of its own. -/
theorem not_forall_links_relative :
    ¬ ∀ (t : FileTree) (hidden : HiddenNames) (request : Request) (response : Response)
        (dir page : Text), t.WellNamed →
          serveListing t hidden request response dir =
              ⟨.ok .ok, (response.setStatus 200).setPage page⟩ →
            ∀ link ∈ Page.links page,
              (Reference.ofText link).scheme = none ∧ (Reference.ofText link).authority = none := by
  intro h
  have hentry : scriptEntry ∈ Listing.parent scriptTree "/www" ::
      Listing.sort [⟨"a b.txt", some ⟨0, 0⟩, 1⟩, scriptEntry] .name .ascending := by
    refine List.mem_cons_of_mem _ ((Listing.sort_perm _ _ _).mem_iff.mpr ?_)
    simp
  have hlink := h scriptTree [] (.new .get "/") {} "/www" _ wellNamed_scriptTree
    (serveListing_eq entries_scriptTree _ _) (escapePath scriptEntry.name) (by
      rw [Listing.links_page]
      exact List.mem_append_right _ (List.mem_map_of_mem hentry))
  have hscheme : (Reference.ofText (escapePath scriptEntry.name)).scheme = some "javascript" := by
    decide +kernel
  rw [hscheme] at hlink
  cases hlink.1

end Webroot
