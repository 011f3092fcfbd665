import Webroot.Toml.Scalar
import Webroot.Toml.Scan

/-!
# TOML documents, read

`parse?` gives the top table of a document, or nothing for a text that is no document. Arrays and
inline tables are read with a bound on how many brackets may be open, which also ends the
recursion.
-/

namespace Webroot.Toml

open Text

/-! ### Values -/

/-- The items of an array after its opening bracket, up to the closing one. -/
def arrayRest (item : Reader Value) : Reader Value := fun t =>
  let padded : Reader Value := fun t =>
    (item (skipGaps t)).map fun (v, r) => (v, skipGaps r)
  let (items, r) := match Reader.separated (Reader.exactly [',']) padded t with
    | some (vs, r) => (vs, (after? [','] r).getD r)
    | none => ([], t)
  match skipGaps r with
  | ']' :: rest => some (.array items, rest)
  | _ => none

/-- A key and its value in an inline table. -/
def inlinePair (item : Reader Value) : Reader ((List Text × Text) × Value) := fun t => do
  let (k, r) ← key t
  let r ← after? ['='] r
  let (v, r) ← item (skipSpaces r)
  some ((k, v), skipSpaces r)

/-- The pairs of an inline table after its opening brace, up to the closing one. -/
def inlineTableRest (item : Reader Value) : Reader Value := fun t => do
  let (pairs, r) := match Reader.separated (Reader.exactly [',']) (inlinePair item) t with
    | some (ps, r) => (ps, r)
    | none => ([], t)
  let rest ← after? ['\x7d'] (skipSpaces r)
  let entries ← pairs.foldlM (fun es ((path, k), v) => addValue path k v .given es) []
  some ((Item.table .given entries).toValue, rest)

/-- A value with at most `depth` brackets open at one time. -/
def value : (depth : Nat) → Reader Value
  | depth, t =>
    match t with
    | [] => none
    | c :: r =>
      if c = '"' ∨ c = '\'' then (string t).map fun (s, r) => (.string s, r)
      else if c = '[' then
        match depth with
        | 0 => none
        | depth + 1 => arrayRest (value depth) r
      else if c = '\x7b' then
        match depth with
        | 0 => none
        | depth + 1 => inlineTableRest (value depth) r
      else if beginsNumber c then number t
      else word t

/-! ### Lines -/

/-- A document under construction: its entries, and the path of the table that keys go to. -/
structure Draft where
  entries : Entries := []
  path : List Text := []

/-- The draft after the header of a table. -/
def Draft.header (d : Draft) (path : List Text) (k : Text)
    (add : Text → Origin → Entries → Option Entries) : Option Draft := do
  let entries ← atPath .implied (add k) path .given d.entries
  some { entries, path := path ++ [k] }

/-- Reads a header after its opening brackets. -/
def headerLine (d : Draft) (close : Text) (add : Text → Origin → Entries → Option Entries) :
    Reader Draft := fun t => do
  let ((path, k), r) ← key t
  let r ← after? close r
  let (_, r) ← lineEnd r
  let d ← d.header path k add
  some (d, r)

/-- Reads a key and its value up to the end of the line. -/
def pairLine (d : Draft) : Reader Draft := fun t => do
  let ((path, k), r) ← key t
  let r ← after? ['='] r
  let (v, r) ← value maxDepth (skipSpaces r)
  let (_, r) ← lineEnd r
  let entries ← atPath .implied (addValue path k v) d.path .given d.entries
  some ({ d with entries }, r)

/-- Reads one line. -/
def line (d : Draft) : Reader Draft := fun t =>
  match skipSpaces t with
  | '[' :: '[' :: r => headerLine d "]]" addToTables r
  | '[' :: r => headerLine d "]" addTable r
  | '#' :: r => (lineEnd ('#' :: r)).map fun (_, r) => (d, r)
  | '\n' :: r => some (d, r)
  | '\r' :: r => (newline ('\r' :: r)).map fun (_, r) => (d, r)
  | r => pairLine d r

/-- Reads all lines. Each takes a character at least. -/
def document : (fuel : Nat) → Draft → Text → Option Draft
  | 0, d, t => if (skipSpaces t).isEmpty then some d else none
  | fuel + 1, d, t =>
    if (skipSpaces t).isEmpty then some d
    else
      match line d t with
      | some (d, r) => document fuel d r
      | none => none

/-- The entries of the top table of a document. A byte order mark in front does not count. -/
def parse? (t : Text) : Option (List (Text × Value)) :=
  let t := match t with
    | '\uFEFF' :: r => r
    | t => t
  (document t.length {} t).map fun d => entryValues d.entries

end Webroot.Toml
