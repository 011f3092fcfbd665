import Webroot.Http.RequestReader
import Webroot.Proofs.Http.HeadLines
import Webroot.Proofs.Mount.Answers

/-!
# The fields that an answer stores

Text of a client reaches the head of an answer in one place only: the address that a redirect leads
to has the path in its written form and the query string *as it was sent*. All other fields are made
here. `StoredField` lists them, and whatever a bare mount makes of a request, the fields that it
stores are among them (`Mount.standard_serve`).

The path may hold line ends, but its written form is tame. The query string holds none because the
request line was cut at white space before. So no field has a line end in it, and the octets of a
head cut into lines are what they should be, with no line that somebody else put there.

Main statement: `Mount.octetLines_head_serve`.
-/

namespace Webroot

open Http Text

/-- The fields that an answer may store, where `address` is what a redirect leads to. -/
inductive StoredField (address : Text) : Text → Text → Prop where
  | tag (item : Item) : StoredField address "ETag" (StaticFile.tag item)
  | fileType (path : Text) : StoredField address "Content-Type" (mediaType path)
  | partsType (s : Setting) :
    StoredField address "Content-Type" (Ranges.multipartType s.boundary)
  | pageType : StoredField address "Content-Type" Response.pageType
  | length (n : Nat) : StoredField address "Content-Length" (decimal n)
  | range (span : Span) (size : Nat) :
    StoredField address "Content-Range" (span.contentRange size)
  | noRange (size : Nat) : StoredField address "Content-Range" ("bytes */" ++ decimal size)
  | changed (s : Int) : StoredField address "Last-Modified" (HttpDate.format s)
  | methods : StoredField address "Allow" Response.fileMethods
  | location : StoredField address "Location" address

namespace StoredField

variable {address name value : Text}

/-- The names of the fields that an answer may store. -/
def names : List Text :=
  ["ETag", "Content-Type", "Content-Length", "Content-Range", "Last-Modified", "Allow", "Location"]

theorem name_mem (h : StoredField address name value) : name ∈ names := by
  cases h <;> decide

/-- Each name has one spelling. -/
theorem eq_of_sameLetters {name' value' : Text} (h : StoredField address name value)
    (h' : StoredField address name' value') (hsame : SameLetters name name') : name = name' := by
  have hall : ∀ a ∈ names, ∀ b ∈ names, SameLetters a b → a = b := by decide
  exact hall name h.name_mem name' h'.name_mem hsame

theorem tame_name (h : StoredField address name value) : Tame name := by
  have hall : ∀ a ∈ names, Tame a := by decide
  exact hall name h.name_mem

/-- A value is of one line if the address is. -/
theorem oneLine_value (h : StoredField address name value) (haddress : OneLine address) :
    OneLine value := by
  have hquote : OneLine ['"'] := by decide
  cases h with
  | tag item =>
    rw [StaticFile.tag, entityTag_eq]
    exact oneLine_append.mpr ⟨hquote, oneLine_append.mpr ⟨(tame_tagText _ _ _).oneLine, hquote⟩⟩
  | fileType path => exact (tame_mediaType path).oneLine
  | partsType s =>
    have hkind : OneLine "multipart/byteranges; boundary=" := by decide
    exact oneLine_append.mpr ⟨hkind, s.tame_boundary.oneLine⟩
  | pageType => decide
  | length n => exact (tame_decimal n).oneLine
  | range span size => exact (span.tame_contentRange size).oneLine
  | noRange size =>
    have hunit : OneLine "bytes */" := by decide
    exact oneLine_append.mpr ⟨hunit, (tame_decimal size).oneLine⟩
  | changed s => exact (HttpDate.tame_format s).oneLine
  | methods => decide
  | location => exact haddress

/-- The fields that may be stored are plain if the address is of one line. -/
theorem plain (h : StoredField address name value) (haddress : OneLine address) :
    Multipart.PlainField name value := by
  have hall : ∀ a ∈ names, ':' ∉ a := by decide
  exact ⟨hall name h.name_mem, h.tame_name.oneLine.1, (h.oneLine_value haddress).1⟩

end StoredField

/-! ### Steps that build a response -/

namespace Http.Response

/-- A response is **standard** for an address when all of its fields are among those that an answer
may store. Only the fields count: the status, the body and the local path do not matter. -/
def Standard (address : Text) (r : Response) : Prop :=
  ∀ f ∈ r.fields, StoredField address f.1 f.2

variable {address : Text} {r : Response}

theorem Standard.setStatus (h : r.Standard address) (code : Nat) :
    (r.setStatus code).Standard address := h

theorem Standard.setField (h : r.Standard address) {name value : Text}
    (hfield : StoredField address name value) : (r.setField name value).Standard address := by
  have hput : ∀ fields : List (Text × Text), (∀ f ∈ fields, StoredField address f.1 f.2) →
      ∀ f ∈ putField name value fields, StoredField address f.1 f.2 := by
    intro fields hfields
    induction fields with
    | nil => simpa [putField] using hfield
    | cons g fields ih =>
      obtain ⟨hg, hrest⟩ := List.forall_mem_cons.mp hfields
      rw [putField]
      split_ifs with hsame
      · -- the name of the field that was there is kept, but it is the same
        refine List.forall_mem_cons.mpr ⟨?_, hrest⟩
        rw [hg.eq_of_sameLetters hfield hsame]
        exact hfield
      · exact List.forall_mem_cons.mpr ⟨hg, ih hrest⟩
  exact hput r.fields h

theorem Standard.removeField (h : r.Standard address) (name : Text) :
    (r.removeField name).Standard address :=
  fun f hf => h f (List.mem_filter.mp hf).1

theorem Standard.setPage (h : r.Standard address) (page : Text) :
    (r.setPage page).Standard address :=
  h.setField .pageType

/-- The report of a failure stores no more than what the failure calls for. -/
theorem Standard.setFailure (h : r.Standard address) (f : Failure) :
    (r.setFailure f).Standard address := by
  have hremoved : ((r.setStatus f.status).removeContentFields).Standard address :=
    ((((h.setStatus f.status).removeField _).removeField _).removeField _).removeField _
  rw [Response.setFailure]
  cases f with
  | rangeNotSatisfiable size => exact (hremoved.setField (.noRange size)).setPage _
  | methodNotAllowed note => exact (hremoved.setField .methods).setPage _
  | notFound | forbidden | badRequest | internal | overflow => exact hremoved.setPage _

end Http.Response

section Reply

variable {address : Text} {s : Setting} {request : Request} {response : Response}
  {path mime : Text}

theorem Ranges.standard_single (h : response.Standard address)
    (hmime : StoredField address "Content-Type" mime) (source : Source) (size : Nat)
    (spec : RangeSpec) :
    (single source path mime size spec response).response.Standard address := by
  obtain ⟨f, hreply⟩ | ⟨span, body, -, -, hreply⟩ :=
    single_cases source path mime size spec response
  · rw [hreply]
    exact h
  · rw [hreply]
    exact (((h.setStatus 206).setField hmime).setField (.range _ _)).setField (.length _)

theorem Ranges.standard_several (h : response.Standard address) (source : Source) (size : Nat)
    (specs : List RangeSpec) :
    (several s source mime size specs response).response.Standard address := by
  obtain ⟨f, hreply⟩ | ⟨spans, length, -, hreply⟩ :=
    several_cases s source mime size specs response
  · rw [hreply]
    exact h
  · rw [hreply]
    exact (((h.setStatus 206).setField (.partsType s)).setField (.length _)).removeField _

theorem standard_serveRanges (h : response.Standard address)
    (hmime : StoredField address "Content-Type" mime) (size : Nat) :
    (serveRanges s request response path size mime).response.Standard address := by
  obtain ⟨f, hreply⟩ | ⟨source, spec, hreply⟩ | ⟨source, specs, hreply⟩ :=
    serveRanges_cases s request response path size mime
  · rw [hreply]
    exact h
  · rw [hreply]
    exact Ranges.standard_single h hmime _ _ _
  · rw [hreply]
    exact Ranges.standard_several h _ _ _

theorem StaticFile.standard_get (h : response.Standard address) :
    (get s request response path).response.Standard address := by
  obtain ⟨e, -, hreply⟩ | ⟨item, -, hreply | hreply | ⟨e, -, hreply⟩ | ⟨source, -, hreply⟩⟩ :=
    get_cases s request response path
  · rw [hreply]
    exact h
  · rw [hreply]
    exact h.setField (.tag item)
  · rw [hreply]
    exact standard_serveRanges (h.setField (.tag item)) (.fileType path) _
  · rw [hreply]
    exact h.setField (.tag item)
  · rw [hreply]
    have htype := ((h.setField (.tag item)).setStatus 200).setField (.fileType path)
    exact (htype.setField (.length _)).setField (.changed _)

theorem StaticFile.standard_serve (h : response.Standard address) :
    (serve s request response path).response.Standard address := by
  rw [serve]
  split
  · exact standard_get h
  · exact standard_get h
  · exact h
  · exact (h.setStatus 200).setField .methods

end Reply

namespace Mount

variable {m : Mount} {s : Setting} {x : Exchange}

theorem standard_serveDirectory (h : x.response.Standard (directoryLocation x.request)) :
    (m.serveDirectory s x).exchange.response.Standard (directoryLocation x.request) := by
  rw [serveDirectory]
  split_ifs
  · exact ((h.setStatus 301).setField .location).setPage _
  · exact h
  · rw [serveListing]
    split
    · exact h
    · exact (h.setStatus 200).setPage _

/-- Whatever a bare mount makes of a request, it stores no fields but those that an answer may
store, and a redirect leads to the directory that the request is for. -/
theorem standard_serve (hm : m.Bare) (h : x.response.Standard (directoryLocation x.request)) :
    (m.serve s x).exchange.response.Standard (directoryLocation x.request) := by
  -- the walk to the file or the directory changes no field
  have hmoved : ∀ taken rest,
      (Resolve.moved (m.enterHome x).1 (m.enterHome x).2 taken rest).response.Standard
        (directoryLocation x.request) := by
    intro taken rest
    rw [response_moved]
    exact h
  rcases Resolve.finds_or_endsInDirectory_or_misses s.tree m.options (m.enterHome x).1
    (m.enterHome x).2.request with
    ⟨pre, base, rest, name, hfinds⟩ | ⟨pre, left, hdir⟩ | ⟨pre, base, rest, hmiss⟩
  · rw [serve_of_finds hm hfinds, servePlain]
    exact StaticFile.standard_serve (hmoved _ _)
  · have hended := hmoved (pre.flatten ++ (left.take 1).flatten) (left.drop 1)
    rw [← directoryLocation_moved m x (pre.flatten ++ (left.take 1).flatten) (left.drop 1)]
      at hended ⊢
    rw [serve_of_endsInDirectory hm hdir]
    cases x.request.method with
    | get | head => exact standard_serveDirectory hended
    | post | options => exact hended
  · rw [(serve_of_misses hm hmiss).2]
    exact h

/-! ### The head of an answer -/

end Mount

/-- The response of an answer once its failure, if it is one, has been reported. -/
def Answer.reported (a : Answer Outcome) : Response :=
  match a.result with
  | .ok _ => a.exchange.response
  | .error f => a.exchange.response.setFailure f

namespace Mount

variable {m : Mount} {s : Setting}

/-- The address of a directory is of one line if the query string is. -/
theorem oneLine_directoryLocation {r : Request}
    (h : ∀ q, r.queryString = some q → OneLine q) : OneLine (directoryLocation r) := by
  have hpath : OneLine (Url.escapePath r.path) := (Url.tame_escapePath r.path).oneLine
  have hslash : OneLine ['/'] := by decide
  have hmark : OneLine ['?'] := by decide
  rw [directoryLocation]
  cases hquery : r.queryString with
  | none => exact oneLine_append.mpr ⟨hpath, hslash⟩
  | some q =>
    have hrest : OneLine (['/'] ++ (['?'] ++ q)) :=
      oneLine_append.mpr ⟨hslash, oneLine_append.mpr ⟨hmark, h q hquery⟩⟩
    exact oneLine_append.mpr ⟨hpath, hrest⟩

/-- **No line is smuggled in.** Whatever octets a request was read from, and whatever a bare mount
makes of it, the fields that are stored are of one line each. Cut into lines, the octets of the head
are the status line, a line for each stored field in order, at most one line with a length that is
added, the date, the server and the empty line that ends the head. -/
theorem octetLines_head_serve {octets : Octets} {id : Nat} {r : Request} (hm : m.Bare)
    (hread : Request.read octets id = .ok r) (now : Instant) :
    let response := (m.serve s { request := r }).reported
    (∀ f ∈ response.fields, OneLine f.1 ∧ OneLine f.2) ∧
      ∃ added,
        (added = [] ∨ added = [(("Content-Length" : Text), decimal response.body.length)]) ∧
        octetLines (Utf8.encode (response.head now)) =
          (response.statusLine ::
            ((response.fields ++ added).map (fun f => Multipart.fieldText f.1 f.2) ++
              [Multipart.fieldText "Date" (HttpDate.format now.seconds),
                Multipart.fieldText "Server" Response.serverName, [], []])).map Utf8.encode := by
  intro response
  have hquery : ∀ q, r.queryString = some q → OneLine q := by
    intro q hq
    have hblank := Request.isBlank_of_mem_queryString hread hq
    constructor
    · exact fun hmem => absurd (hblank _ hmem) (by decide)
    · exact fun hmem => absurd (hblank _ hmem) (by decide)
  have haddress := oneLine_directoryLocation hquery
  have hserve := standard_serve (s := s) (x := { request := r }) hm fun f hf => nomatch hf
  have hstandard : response.Standard (directoryLocation r) := by
    unfold response Answer.reported
    split
    · exact hserve
    · exact hserve.setFailure _
  constructor
  · intro f hf
    have hfield := hstandard f hf
    exact ⟨hfield.tame_name.oneLine, hfield.oneLine_value haddress⟩
  · exact Response.octetLines_head (fun f hf => (hstandard f hf).plain haddress) now

/-- The octets of a request whose path holds a line end once it is decoded. -/
def lineEndOctets : Octets := Utf8.encode "GET /a%0D%0Ab?q HTTP/1.1\r\n\r\n"

/-- The request that they hold. -/
def lineEndRequest : Request := Request.new .get "/a%0D%0Ab?q"

/-- A directory with a line end in its name. -/
def lineEndSetting : Setting :=
  { tree := .ofFiles ⟨0, 0⟩ [("/www/a\r\nb/c", [])], now := ⟨0, 0⟩, process := 0 }

theorem octetLines_head_serve_lineEnd :
    let response := (bareMount.serve lineEndSetting { request := lineEndRequest }).reported
    response.field? "Location" = some ("/a%0D%0Ab/?q" : Text) ∧
      ∀ f ∈ response.fields, OneLine f.1 ∧ OneLine f.2 := by
  have hm : bareMount.Bare := ⟨⟨rfl, rfl, rfl⟩, rfl, rfl⟩
  have hread : Request.read lineEndOctets 0 = .ok lineEndRequest := by rfl
  exact ⟨by decide +kernel, (octetLines_head_serve hm hread ⟨0, 0⟩).1⟩

end Mount

end Webroot
