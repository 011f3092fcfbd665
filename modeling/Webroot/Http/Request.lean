import Webroot.Http.FieldList
import Webroot.Http.Method
import Webroot.Http.Quality
import Webroot.Url.Query

/-!
# Requests

A request as the file service sees it. Its path is split in two: **script name** is what has been
walked already and **path info** what is still to be walked. At first all of the path is still to
be walked. Beside the header fields are kept the languages that one of them lists, in the order in
which they are wanted; they are read again only when that field gets another value.
-/

namespace Webroot.Http

open Text

/-! ### Header fields -/

/-- The name under which a header field is kept. -/
def Request.fieldName (name : Text) : Text := lower (trim name)

/-- The languages that the accept-language field lists in a table of values by names, the most
wanted first. -/
def languagesOf (values : Table Text) : List Text :=
  ((values[("accept-language" : Text)]?).map byQuality).getD []

/-- The header fields of a request, with the languages that they list. -/
structure RequestFields where
  /-- The values of the fields by their names in lower case. -/
  values : Table Text
  /-- The languages that the client accepts, the most wanted first. -/
  languages : List Text
  languages_eq : languages = languagesOf values

namespace RequestFields

instance : EmptyCollection RequestFields := ⟨{ values := ∅, languages := [], languages_eq := rfl }⟩

@[simp]
theorem values_empty : (∅ : RequestFields).values = ∅ := rfl

/-- Fields with the same values list the same languages. -/
theorem eq_of_values {f g : RequestFields} (h : f.values = g.values) : f = g := by
  obtain ⟨values, languages, rfl⟩ := f
  obtain ⟨values', languages', rfl⟩ := g
  obtain rfl : values = values' := h
  rfl

/-- The languages after a field got a value: read from that value if it lists languages, and else
those from before. -/
def languagesAfter (f : RequestFields) (key value : Text) : List Text :=
  if key = "accept-language" then byQuality value else f.languages

/-- Only the field that lists languages has to be read again. -/
theorem languagesAfter_eq (f : RequestFields) (key value : Text) :
    f.languagesAfter key value = languagesOf (f.values.insert key value) := by
  rw [languagesAfter, languagesOf]
  split
  · next h =>
    rw [h, Std.ExtTreeMap.getElem?_insert_self]
    rfl
  · next h =>
    rw [Std.ExtTreeMap.getElem?_insert, if_neg (by simpa using h)]
    exact f.languages_eq

/-- The fields with one more. A second value of a field follows the first after a comma. -/
def add (f : RequestFields) (name value : Text) : RequestFields :=
  let key := Request.fieldName name
  let value := trim value
  let joined :=
    match f.values[key]? with
    | some before => before ++ ", " ++ value
    | none => value
  { values := f.values.insert key joined
    languages := f.languagesAfter key joined
    languages_eq := f.languagesAfter_eq key joined }

/-- One more field changes the value under its own name alone. -/
theorem getElem?_add (f : RequestFields) (name value key : Text) :
    (f.add name value).values[key]? =
      if Request.fieldName name = key then
        some (((f.values[key]?).map (· ++ ", " ++ trim value)).getD (trim value))
      else f.values[key]? := by
  rw [add, Std.ExtTreeMap.getElem?_insert]
  simp only [Std.compare_eq_iff_eq]
  split
  · next h =>
    rw [h]
    cases f.values[key]? <;> rfl
  · rfl

end RequestFields

/-! ### Requests -/

/-- A request for a path. -/
structure Request where
  /-- The number that the host gave the request. -/
  id : Nat
  method : Method
  /-- The decoded path, without the query string. -/
  path : Text
  /-- The query string as it was sent, without the question mark. -/
  queryString : Option Text
  fields : RequestFields
  scriptName : Text
  pathInfo : Text

namespace Request

/-! ### Making requests -/

/-- The request for a target: a percent-encoded path and perhaps a query string. -/
def new (method : Method) (target : Text) : Request :=
  let (rawPath, query) :=
    match cut '?' target with
    | some (p, q) => (p, some q)
    | none => (target, none)
  let path := Url.unescape rawPath
  { id := 0, method, path, queryString := query, fields := ∅, scriptName := [], pathInfo := path }

/-- The request with one more header field. -/
def withField (r : Request) (name value : Text) : Request :=
  { r with fields := r.fields.add name value }

/-- The request with one more header field for each pair, in order. -/
def withFields (r : Request) (fields : List (Text × Text)) : Request :=
  fields.foldl (fun r (name, value) => r.withField name value) r

/-- The request as seen from a mount point: the mount point counts as walked already. Unless it is
the start of the path, nothing changes. -/
def mountedAt (r : Request) (mount : Text) : Request :=
  let mount := trimEnd (· == '/') mount
  match after? mount r.path with
  | some rest => { r with scriptName := mount, pathInfo := rest }
  | none => r

/-! ### Reading requests -/

/-- The value of a header field, by its name in any case. -/
def field? (r : Request) (name : Text) : Option Text := r.fields.values[lower name]?

/-- The elements of a header field that holds a list. -/
def fieldElements (r : Request) (name : Text) : List Text :=
  ((r.field? name).map listElements).getD []

/-- The parameters of the query string. -/
def query (r : Request) : Table Text := ((r.queryString).map Url.parameters).getD ∅

/-- The languages that the client accepts, the most wanted first. -/
def acceptLanguage (r : Request) : List Text := r.fields.languages

/-- They are what the accept-language field lists. -/
theorem acceptLanguage_eq_byQuality (r : Request) :
    r.acceptLanguage = ((r.field? "accept-language").map byQuality).getD [] :=
  r.fields.languages_eq

/-- The host that the client addressed. -/
def host? (r : Request) : Option Text := r.field? "host"

end Request

end Webroot.Http
