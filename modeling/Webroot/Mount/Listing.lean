import Webroot.HiddenNames
import Webroot.Mount.Exchange

/-!
# Listings of directories

A listing is a page with a line for each entry of a directory that is not hidden, after a line for
the parent directory. It is sorted by name, time of last change or size as the query string says;
the headings link to the opposite order.
-/

namespace Webroot

open Http Text

namespace Listing

/-! ### Entries -/

/-- An entry of a listing. A directory has a slash after its name and the size -1; a name that
leads nowhere has no time and the size -1. The name is a text: where the octets of the name in the
directory are none, it has U+FFFD for each ill-formed piece of them. -/
structure Entry where
  name : Text
  modified : Option Instant
  size : Int
  deriving DecidableEq, Repr

/-- The entry for a name and what it leads to. -/
def entry (name : Text) : Except LookupError Item → Entry
  | .error _ => ⟨name, none, -1⟩
  | .ok i =>
    if i.isDirectory then ⟨name ++ ['/'], some i.modified, -1⟩
    else ⟨name, some i.modified, i.size⟩

/-- What a name in a directory leads to. -/
def lookup (t : FileTree) (dir : Text) (name : Octets) : Except LookupError Item :=
  t.find (Utf8.encode (Path.join dir []) ++ name)

/-- The entries of a directory whose names, read as texts, are not hidden. -/
def entries (t : FileTree) (hidden : HiddenNames) (dir : Text) : Except Failure (List Entry) :=
  match t.list? dir with
  | none => .error (.cannotList dir)
  | some names =>
    let patterns := hidden.patterns
    let shown := names.filter fun n =>
      (HiddenPattern.first? patterns (Utf8.decodeLossy n)).isNone
    .ok (shown.map fun n => entry (Utf8.decodeLossy n) (lookup t dir n))

/-! ### Order -/

/-- What a listing is sorted by. -/
inductive SortKey where
  | name
  | modified
  | size
  deriving DecidableEq, Repr

/-- In which direction a listing is sorted. -/
inductive SortOrder where
  | ascending
  | descending
  deriving DecidableEq, Repr

namespace SortOrder

/-- The letter for an order in query strings. -/
def letter : SortOrder → Text
  | ascending => "A"
  | descending => "D"

/-- The order that the letter of a query string asks for: everything but `A` asks for the
descending one. -/
def ofText (t : Text) : SortOrder := if t = ascending.letter then ascending else descending

/-- The opposite order. -/
def reversed : SortOrder → SortOrder
  | ascending => descending
  | descending => ascending

end SortOrder

/-- The sort key and the order that a query string asks for. -/
def sorting (query : Table Text) : SortKey × SortOrder :=
  match query[("N" : Text)]?, query[("M" : Text)]?, query[("S" : Text)]? with
  | some t, _, _ => (.name, .ofText t)
  | none, some t, _ => (.modified, .ofText t)
  | none, none, some t => (.size, .ofText t)
  | none, none, none => (.name, .ascending)

/-- Whether a time is not after another. No time comes before every time. -/
def notAfter : Option Instant → Option Instant → Bool
  | none, _ => true
  | some _, none => false
  | some a, some b => a.le b

/-- Whether an entry may stand before another in ascending order. -/
def le (key : SortKey) (a b : Entry) : Bool :=
  match key with
  | .name => (compare a.name b.name).isLE
  | .modified => notAfter a.modified b.modified
  | .size => a.size ≤ b.size

/-- The entries in order. Entries with the same key stay as they stood. -/
def sort (es : List Entry) (key : SortKey) (order : SortOrder) : List Entry :=
  match order with
  | .ascending => es.mergeSort (le key)
  | .descending => es.mergeSort fun a b => le key b a

/-! ### The page -/

/-- The most characters of a name that are shown. -/
def nameWidth : Nat := 25

/-- The width of the column of names. -/
def columnWidth : Nat := 30

/-- A name as shown. -/
def shownName (name : Text) : Text :=
  if name = ['.', '.'] then "Parent Directory"
  else if nameWidth < name.length then name.take (nameWidth - 2) ++ ".."
  else name

/-- Spaces. -/
def spaces (n : Nat) : Text := List.replicate n ' '

/-- A time as shown. -/
def shownTime : Option Instant → Text
  | some i => HttpDate.brief i.seconds ++ spaces 6
  | none => spaces 22

/-- A size as shown. -/
def shownSize (size : Int) : Text := if size < 0 then "-" else decimal size.toNat

/-- The line for an entry. -/
def line (e : Entry) : Text :=
  let shown := shownName e.name
  " <A HREF=\"" ++ Url.escapePath e.name ++ "\">" ++ Page.escape shown ++ "</A>"
    ++ spaces (columnWidth - shown.length) ++ shownTime e.modified ++ shownSize e.size ++ "\n"

/-- The start of the page up to the headings. -/
def pageHead (path : Text) : Text :=
  let title := Page.escape path
  "<!DOCTYPE HTML PUBLIC \"-//W3C//DTD HTML 3.2 Final//EN\">\n<HTML>\n  <HEAD><TITLE>Index of "
    ++ title ++ "</TITLE></HEAD>\n  <BODY>\n    <H1>Index of " ++ title ++ "</H1>\n<PRE>\n"

/-- The headings, which link to an order. -/
def headings (order : SortOrder) : Text :=
  " <A HREF=\"?N=" ++ order.letter ++ "\">Name</A>" ++ spaces 26 ++ "<A HREF=\"?M="
    ++ order.letter ++ "\">Last modified</A>" ++ spaces 9 ++ "<A HREF=\"?S=" ++ order.letter
    ++ "\">Size</A>\n<HR>\n"

/-- The end of the page, with the server's name and the host that the client addressed. -/
def pageFoot (host : Text) : Text :=
  "</PRE><HR>\n    <ADDRESS>\n     " ++ Page.escape Response.serverName ++ "<BR>\n     at "
    ++ Page.escape host ++ "\n    </ADDRESS>\n  </BODY>\n</HTML>\n"

/-- The page for a path. -/
def page (path host : Text) (order : SortOrder) (es : List Entry) : Text :=
  pageHead path ++ headings order.reversed ++ es.flatMap line ++ pageFoot host

/-- The entry for the parent of a directory. -/
def parent (t : FileTree) (dir : Text) : Entry :=
  let modified := match t.stat (Path.join dir ['.', '.']) with
    | .ok i => some i.modified
    | .error _ => none
  ⟨['.', '.'], modified, -1⟩

end Listing

/-- Answers a request with the listing of a directory. -/
def serveListing (t : FileTree) (hidden : HiddenNames) (request : Request) (response : Response)
    (dir : Text) : Reply :=
  match Listing.entries t hidden dir with
  | .error f => ⟨.error f, response⟩
  | .ok es =>
    let (key, order) := Listing.sorting request.query
    let es := Listing.parent t dir :: Listing.sort es key order
    let host := (request.host?).getD []
    ⟨.ok .ok, (response.setStatus 200).setPage (Listing.page request.path host order es)⟩

end Webroot
