import Webroot.Mount.Service
import Webroot.Proofs.Mount.Entries
import Webroot.Proofs.Page.Markup

/-!
# The markup of the pages of a mount

A listing puts paths, the host that the client addressed and the names of files into its page: in
the title, in the heading, as the target and as the text of a link, and in the foot. The text of a
link is cut short *before* it is escaped, so no reference is cut in two, and a cut text is as inert
as a whole one. So a listing fills a template that depends on the number of its entries and on what
its headings link to, and on nothing else (`Listing.fills_page`). Redirects and reports of failures
have status pages.

Main statement: `serveListing_markup`.
-/

namespace Webroot

open Http Text Page

namespace Listing

/-! ### The template of a listing -/

theorem tame_spaces (n : Nat) : Tame (spaces n) := by
  intro c hc
  rw [List.eq_of_mem_replicate hc]
  rfl

theorem tame_shownTime (i : Option Instant) : Tame (shownTime i) := by
  cases i with
  | none => exact tame_spaces 22
  | some i => exact tame_append.mpr ⟨HttpDate.tame_brief i.seconds, tame_spaces 6⟩

theorem tame_shownSize (size : Int) : Tame (shownSize size) := by
  rw [shownSize]
  split_ifs
  · decide
  · exact tame_decimal _

/-- The template of the line for an entry: gaps for the target and the text of the link, the blanks
behind it, the time and the size. -/
def lineTemplate : Template :=
  [some (" <A HREF=\"" : Text), none, some ("\">" : Text), none, some ("</A>" : Text), none, none,
    none, some ("\n" : Text)]

/-- The template of a listing with these headings and so many lines. -/
def template (headings : Text) (lines : Nat) : Template :=
  [some
    ("<!DOCTYPE HTML PUBLIC \"-//W3C//DTD HTML 3.2 Final//EN\">\n<HTML>\n  <HEAD><TITLE>Index of "
      : Text), none, some ("</TITLE></HEAD>\n  <BODY>\n    <H1>Index of " : Text), none,
    some ("</H1>\n<PRE>\n" : Text), some headings] ++
  (List.replicate lines lineTemplate).flatten ++
  [some ("</PRE><HR>\n    <ADDRESS>\n     " : Text), none, some ("<BR>\n     at " : Text), none,
    some ("\n    </ADDRESS>\n  </BODY>\n</HTML>\n" : Text)]

theorem fills_line (e : Entry) : Fills lineTemplate (line e) := by
  have hlink := inert_of_tame (Url.tame_escapePath e.name)
  have hspaces := inert_of_tame (tame_spaces (columnWidth - (shownName e.name).length))
  have htime := inert_of_tame (tame_shownTime e.modified)
  have hsize := inert_of_tame (tame_shownSize e.size)
  unfold line
  simp only [List.append_assoc]
  refine .fixed _ (.gap hlink (.fixed _ (.gap (inert_escape _) (.fixed _ ?_))))
  exact .gap hspaces (.gap htime (.gap hsize (.text _)))

/-- A listing, for every path, host and set of entries, fills the template of its headings and of
the number of its lines. -/
theorem fills_page (path host : Text) (order : SortOrder) (es : List Entry) :
    Fills (template (headings order.reversed) es.length) (page path host order es) := by
  have hpath := inert_escape path
  unfold page pageHead pageFoot
  simp only [List.append_assoc]
  refine .fixed _ (.gap hpath (.fixed _ (.gap hpath (.fixed _ (.fixed _ ?_)))))
  refine (Fills.flatMap fills_line es).append (.fixed _ (.gap (inert_escape _) ?_))
  exact .fixed _ (.gap (inert_escape host) (.text _))

end Listing

/-! ### The pages of answers -/

/-- A response **shows** a template when its body is a page that fills the template. -/
def Http.Response.Shows (r : Response) (template : Template) : Prop :=
  ∃ page, r.body = .bytes (Utf8.encode page) ∧ Fills template page

theorem Http.Response.shows_setPage (r : Response) {template : Template} {page : Text}
    (h : Fills template page) : (r.setPage page).Shows template :=
  ⟨page, rfl, h⟩

/-- The report of a failure shows the template of status pages, whatever the note of the failure. -/
theorem Http.Response.shows_setFailure (r : Response) (f : Failure) :
    (r.setFailure f).Shows statusTemplate :=
  shows_setPage _ (fills_status f.status f.publicNote?)

/-- A redirect shows the template of status pages, whatever it leads to. -/
theorem Mount.shows_setRedirect (r : Response) (location : Text) :
    (setRedirect r location).Shows statusTemplate :=
  Response.shows_setPage _ (fills_status 301 (some location))

/-- The template of the listing that a request asks for in a directory with so many entries: there
is a line for the parent besides. -/
def Listing.templateFor (request : Request) (entries : Nat) : Template :=
  template (headings (sorting request.query).2.reversed) (entries + 1)

/-- A listing is a page that fills the template of the request. -/
theorem exists_page_of_serveListing {t : FileTree} {hidden : HiddenNames} {dir : Text}
    {es : List Listing.Entry} (hes : Listing.entries t hidden dir = .ok es) (request : Request)
    (response : Response) :
    ∃ page, serveListing t hidden request response dir =
        ⟨.ok .ok, (response.setStatus 200).setPage page⟩ ∧
      Fills (Listing.templateFor request es.length) page := by
  refine ⟨_, serveListing_eq hes request response, ?_⟩
  have hlines : (Listing.parent t dir :: Listing.sort es (Listing.sorting request.query).1
      (Listing.sorting request.query).2).length = es.length + 1 := by
    rw [List.length_cons, (Listing.sort_perm es _ _).length_eq]
  rw [Listing.templateFor, ← hlines]
  exact Listing.fills_page _ _ _ _

/-- **Markup of pages.** Listings of two directories with as many entries, asked for with the same
links in the headings, fill one template, so they have the same markup, whatever their paths, the
hosts and the names in them. The pages of failures and of redirects all fill one template and have
the same markup, too. Escaped text is read as the text that was escaped. -/
theorem serveListing_markup {t t' : FileTree} {hidden hidden' : HiddenNames} {dir dir' : Text}
    {es es' : List Listing.Entry} {request request' : Request}
    (hes : Listing.entries t hidden dir = .ok es)
    (hes' : Listing.entries t' hidden' dir' = .ok es') (hlength : es.length = es'.length)
    (hlinks : Listing.headings (Listing.sorting request.query).2.reversed =
      Listing.headings (Listing.sorting request'.query).2.reversed)
    (response response' : Response) :
    (∃ page page', serveListing t hidden request response dir =
          ⟨.ok .ok, (response.setStatus 200).setPage page⟩ ∧
        serveListing t' hidden' request' response' dir' =
          ⟨.ok .ok, (response'.setStatus 200).setPage page'⟩ ∧
        Fills (Listing.templateFor request es.length) page ∧
        Fills (Listing.templateFor request es.length) page' ∧ markup page = markup page') ∧
      (∀ r f, (Response.setFailure r f).Shows statusTemplate) ∧
      (∀ r location, (Mount.setRedirect r location).Shows statusTemplate) ∧
      (∀ code code' note note', Fills statusTemplate (status code note) ∧
        markup (status code note) = markup (status code' note')) ∧
      ∀ s, Page.unescape (escape s) = s := by
  obtain ⟨page, hserve, hfills⟩ := exists_page_of_serveListing hes request response
  obtain ⟨page', hserve', hfills'⟩ := exists_page_of_serveListing hes' request' response'
  have htemplate : Listing.templateFor request' es'.length =
      Listing.templateFor request es.length := by
    rw [Listing.templateFor, ← hlinks, ← hlength]
    rfl
  rw [htemplate] at hfills'
  refine ⟨⟨page, page', hserve, hserve', hfills, hfills', hfills.markup_eq_markup hfills'⟩,
    Response.shows_setFailure, Mount.shows_setRedirect, ?_, unescape_escape⟩
  intro code code' note note'
  have hstatus := fills_status code note
  exact ⟨hstatus, hstatus.markup_eq_markup (fills_status code' note')⟩

/-- A directory with two files of plain names. -/
def plainTree : FileTree := .ofFiles ⟨0, 0⟩ [("/www/a", []), ("/www/b", [])]

/-- A directory with two files whose names are like markup. -/
def markupTree : FileTree := .ofFiles ⟨0, 0⟩ [("/a&b/\"><b>", []), ("/a&b/<script>", [])]

/-- A request for a directory with a host that is like markup. -/
def markupRequest : Request := (Request.new .get "/a&b/?M=A").withField "Host" "<img src=\"x\">"

theorem serveListing_markup_markupTree :
    ∃ page page', serveListing plainTree [] (.new .get "/www/") {} "/www" =
        ⟨.ok .ok, (Response.setStatus {} 200).setPage page⟩ ∧
      serveListing markupTree [] markupRequest {} "/a&b" =
        ⟨.ok .ok, (Response.setStatus {} 200).setPage page'⟩ ∧ markup page = markup page' := by
  have hplain : Listing.entries plainTree [] "/www" =
      .ok [⟨"a", some ⟨0, 0⟩, 0⟩, ⟨"b", some ⟨0, 0⟩, 0⟩] := by decide +kernel
  have hmarkup : Listing.entries markupTree [] "/a&b" =
      .ok [⟨"\"><b>", some ⟨0, 0⟩, 0⟩, ⟨"<script>", some ⟨0, 0⟩, 0⟩] := by decide +kernel
  have hlinks : Listing.headings (Listing.sorting (Request.new .get "/www/").query).2.reversed =
      Listing.headings (Listing.sorting markupRequest.query).2.reversed := by decide +kernel
  obtain ⟨⟨page, page', hserve, hserve', -, -, hsame⟩, -⟩ :=
    serveListing_markup hplain hmarkup rfl hlinks {} {}
  exact ⟨page, page', hserve, hserve', hsame⟩

end Webroot
