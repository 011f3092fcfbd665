import Webroot.Glob.Draft
import Webroot.Glob.Pattern
import Webroot.Text.OctetRange
import Webroot.Text.Utf8

/-!
# The size of a pattern

A pattern is to be matched by machines over octets, one that reads a name forwards and one that
reads it backwards, and each of them may take 10 MiB. The **footprint** of a pattern is what they
would take. A machine is laid down in the order in which it reads:

* **Characters** take a state for each of their octets.
* **Classes** are rows of octet ranges. Forwards, a class is a tree of the rows in which states
  with the same ranges to the same states are shared; backwards, it is a state with a branch to
  every row, and rows that begin alike share their states. A class of ASCII alone is one state
  with all the ranges.
* **Runs** add a state with two branches to the class that they repeat.

A range inside a state takes 8 bytes and a branch 4. Every class starts with empty slots.
-/

namespace Webroot.Glob

open Utf8 (OctetRange)

/-! ### What classes stand for -/

/-- Ranges of characters as ranges of code points. -/
def codePoints (rs : List CharRange) : CharSet := rs.map fun r => (r.lo.toNat, r.hi.toNat)

/-- The characters of a class in order. -/
def CharClass.set (k : CharClass) : CharSet :=
  let outside := (codePoints k.members).complement ++ codePoints k.removed
  (if k.negated then outside.spans else outside.complement).characters

/-- The rows for a set. -/
def rowsOf (s : CharSet) : List (List OctetRange) := s.flatMap fun (lo, hi) => Utf8.rows lo hi

/-- The rows for the characters other than a slash. -/
def slashless : List (List OctetRange) := rowsOf (CharSet.complement [(0x2F, 0x2F)]).characters

/-! ### Machines -/

/-- Which way a machine reads a name. -/
inductive Direction where
  | forwards
  | backwards
  deriving DecidableEq, Repr

namespace Draft

/-- The bytes of some ranges of octets inside a state. -/
def ranges (n : Nat) : Nat := 8 * n

/-- The bytes of some branches. -/
def branches (n : Nat) : Nat := 4 * n

/-- A character. -/
def layChar (d : Draft) (c : Char) : Draft := d.layBlank (Utf8.encodeChar c).length

/-- The ranges with which rows begin, each with what follows it. Rows that begin alike stand
together. -/
def partsOf : List (List OctetRange) → List (OctetRange × List (List OctetRange))
  | [] => []
  | [] :: rows => partsOf rows
  | (r :: row) :: rows =>
    match partsOf rows with
    | [] => [(r, [row])]
    | (r', rest) :: others =>
      if r = r' then (r, row :: rest) :: others else (r, [row]) :: (r', rest) :: others

/-- The slots for a class read forwards. -/
def treeSlots : Nat := 10000

/-- The slots for a class read backwards. -/
def rowSlots : Nat := 1000

/-- The state that reads rows of up to `n` ranges and goes on to `exit`. It is described by its
ranges, each with the state that it leads to. -/
def layTree (exit : Nat) : (n : Nat) → List (List OctetRange) → Draft → Nat × Draft
  | 0, _, d => (exit, d)
  | n + 1, rows, d =>
    let parts := partsOf rows
    if parts.isEmpty then (exit, d)
    else
      let (description, d) := parts.foldl (fun ((description, d) : List Nat × Draft) (r, rest) =>
        let (next, d) := layTree exit n rest d
        (description ++ [r.1, r.2, next], d)) ([], d)
      d.share treeSlots description (ranges parts.length)

/-- A row with a branch to it. Its states follow one another from the end of the class on; each is
described by the one before it and its range. -/
def layRow (exit : Nat) (d : Draft) (row : List OctetRange) : Draft :=
  let (_, d) := row.foldl (fun ((last, d) : Nat × Draft) r =>
    d.share rowSlots [last, r.1, r.2] 0) (exit, d)
  { d with bytes := d.bytes + branches 1 }

/-- A class beyond ASCII, given by its rows. A character has up to four octets. -/
def layRows (way : Direction) (d : Draft) (rows : List (List OctetRange)) : Draft :=
  match way with
  | .forwards => (layTree d.states 4 rows (d.forget.layBlank 1)).2
  | .backwards => rows.foldl (layRow (d.states + 1)) (d.forget.layBlank 2)

/-- A class of these characters. A class of one character is that character. -/
def laySet (way : Direction) (d : Draft) (s : CharSet) : Draft :=
  match s with
  | [] => d.layBlank 2
  | (lo, hi) :: rest =>
    if lo = hi ∧ rest.isEmpty then d.layChar (Char.ofNat lo)
    else if s.all fun (_, hi) => hi < 0x80 then (d.layBlank 1).lay (ranges s.length)
    else d.layRows way (rowsOf s)

/-! ### Patterns -/

/-- An atom. -/
def layAtom (way : Direction) (d : Draft) : Atom → Draft
  | .literal c => d.layChar c
  | .anyOne => d.layRows way slashless
  | .anyRun => (d.lay (branches 2)).layRows way slashless
  | .oneOf k => d.laySet way k.set

/-- The machine of a pattern: its atoms between the states for the start and the end of the name,
with an entry and an exit, and forwards two more that mark what was read. Backwards, the last atom
comes first. -/
def ofPattern (p : List Atom) : Direction → Draft
  | .forwards => (p.foldl (layAtom .forwards) (layBlank {} 3)).layBlank 3
  | .backwards => (p.foldr (fun a d => d.layAtom .backwards a) (layBlank {} 2)).layBlank 2

end Draft

/-! ### The limit -/

/-- The most bytes that a machine may take. -/
def maxFootprint : Nat := 0xA00000

/-- Whether both machines of a pattern keep within the limit. -/
def fits (p : List Atom) : Bool :=
  (Draft.ofPattern p .forwards).bytes ≤ maxFootprint &&
    (Draft.ofPattern p .backwards).bytes ≤ maxFootprint

end Webroot.Glob
