import Webroot.Text.Basic

/-!
# TOML values and documents

A document is built entry by entry. While it is built a table remembers how it came about, since
that decides what may still be added to it:

* `given`: by its own header, or as the top of a document or of an inline table;
* `implied`: as a part of the header of another table; its own header may follow;
* `dotted`: as a part of a dotted key; more dotted keys may follow.

An inline table is a value and takes nothing more.
-/

namespace Webroot.Toml

/-- A value. Floats and dates keep their text. -/
inductive Value where
  | string (t : Text)
  | integer (i : Int)
  | float (t : Text)
  | boolean (b : Bool)
  | datetime (t : Text)
  | array (items : List Value)
  | table (entries : List (Text × Value))

/-- How a table came about. -/
inductive Origin where
  | given
  | implied
  | dotted
  deriving DecidableEq, Repr

/-- What stands under a key while a document is built. -/
inductive Item where
  | value (v : Value)
  | table (origin : Origin) (entries : List (Text × Item))
  /-- The tables of an array of tables, the last one first. -/
  | tables (latestFirst : List (List (Text × Item)))

/-- The entries of a table while a document is built. -/
abbrev Entries := List (Text × Item)

/-- The entries with another item under a key. -/
def Entries.put (es : Entries) (key : Text) (item : Item) : Entries :=
  (key, item) :: es.filter fun e => e.1 ≠ key

/-- Changes the table at a path. Tables that are missing on the way are made; of an array of
tables the latest table is meant. With `origin` dotted only implied and dotted tables may lie on
the way. -/
def atPath (origin : Origin) (change : Origin → Entries → Option Entries) :
    (path : List Text) → Origin → Entries → Option Entries
  | [], o, es => change o es
  | key :: path, _, es =>
    match es.lookup key with
    | none => (atPath origin change path origin []).map fun sub => es.put key (.table origin sub)
    | some (.value _) => none
    | some (.tables []) => none
    | some (.tables (latest :: before)) =>
      (atPath origin change path .given latest).map fun sub =>
        es.put key (.tables (sub :: before))
    | some (.table o sub) =>
      if origin = .dotted ∧ o = .given then none
      else (atPath origin change path o sub).map fun sub => es.put key (.table o sub)

/-- Adds a value under a key, dotted if `path` is not empty. -/
def addValue (path : List Text) (key : Text) (v : Value) (origin : Origin) (es : Entries) :
    Option Entries :=
  atPath .dotted (fun o es =>
    if (o = .dotted) = (path = []) then none
    else if (es.lookup key).isSome then none
    else some (es.put key (.value v))) path origin es

/-- Adds the table of a header. -/
def addTable (key : Text) (_ : Origin) (es : Entries) : Option Entries :=
  match es.lookup key with
  | none => some (es.put key (.table .given []))
  | some (.table .implied sub) => some (es.put key (.table .given sub))
  | some _ => none

/-- Adds a table to the array of tables of a header. -/
def addToTables (key : Text) (_ : Origin) (es : Entries) : Option Entries :=
  match es.lookup key with
  | none => some (es.put key (.tables [[]]))
  | some (.tables ts) => some (es.put key (.tables ([] :: ts)))
  | some _ => none

mutual

/-- The value of an item. -/
def Item.toValue : Item → Value
  | .value v => v
  | .table _ es => .table (entryValues es)
  | .tables ts => .array (tableValues ts).reverse

/-- The values of entries. -/
def entryValues : List (Text × Item) → List (Text × Value)
  | [] => []
  | (key, item) :: es => (key, item.toValue) :: entryValues es

/-- The values of tables. -/
def tableValues : List (List (Text × Item)) → List Value
  | [] => []
  | es :: ts => .table (entryValues es) :: tableValues ts

end

end Webroot.Toml
