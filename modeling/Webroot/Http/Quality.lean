import Webroot.Number.Binary64
import Webroot.Text.Blank
import Webroot.Text.DecimalDigit
import Webroot.Text.Numeral

/-!
# Quality lists

A quality list names what a client accepts: comma-separated tags, each with an optional weight
`;q=w`. A tag without a weight has the weight 1. `byQuality` lists the tags by decreasing weight
and leaves tags of equal weight in the order of the list. An element of another form is skipped.
-/

namespace Webroot.Http

open Text

/-- Whether a character may stand in the tag of a quality list. -/
def isQualityTagChar (c : Char) : Bool := !(isBlank c || c == ',' || c == ';')

/-- Whether a text has the form of a weight: digits, or digits, a point and digits. -/
def isWeight (t : Text) : Bool :=
  let whole := t.takeWhile isAnyDigit
  !whole.isEmpty &&
    match t.dropWhile isAnyDigit with
    | [] => true
    | '.' :: fraction => !fraction.isEmpty && fraction.all isAnyDigit
    | _ => false

/-- The weight that a text denotes, in units of 2 ^ -1074. Digits of other scripts have no value
here, and a weight written in them counts as 1. -/
def weightUnits (t : Text) : Nat :=
  let (whole, fraction) := (cut '.' t).getD (t, [])
  if (whole ++ fraction).all Char.isDigit then
    Binary64.units (Nat.ofDigitChars 10 (whole ++ fraction) 0) (Nat.pow 10 fraction.length)
  else Binary64.units 1 1

/-- What follows the tag of an element: nothing, or the weight. -/
def weightOf? (t : Text) : Option Nat :=
  match t with
  | [] => some (Binary64.units 1 1)
  | ';' :: r =>
    match after? "q=" (trimStart r) with
    | some w => if isWeight w then some (weightUnits w) else none
    | none => none
  | _ => none

/-- The tag and the weight of one element. -/
def qualityElement? (t : Text) : Option (Text × Nat) :=
  let tag := t.takeWhile isQualityTagChar
  if tag.isEmpty then none
  else (weightOf? (t.dropWhile isQualityTagChar)).map fun w => (tag, w)

/-- The elements of a quality list that have a tag and a weight, in order. -/
def qualityElements (value : Text) : List (Text × Nat) :=
  (value.splitOn ',').filterMap fun part => qualityElement? (trim part)

/-- The tags of a quality list by decreasing weight. -/
def byQuality (value : Text) : List Text :=
  ((qualityElements value).mergeSort fun a b => b.2 ≤ a.2).map (·.1)

end Webroot.Http
