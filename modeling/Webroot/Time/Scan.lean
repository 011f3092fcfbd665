import Webroot.Text.Blank
import Webroot.Text.Numeral
import Webroot.Text.Reader
import Webroot.Time.HttpDate

/-!
# Reading the pieces of dates
-/

namespace Webroot.HttpDate

open Text

/-- A number of `least` to `most` digits, as many as there are, below 2 ^ 63. -/
def number (least most : Nat) : Reader Nat := fun t =>
  let digits := (t.takeWhile Char.isDigit).take most
  let n := Nat.ofDigitChars 10 digits 0
  if least ≤ digits.length ∧ n < 0x8000000000000000 then some (n, t.drop digits.length) else none

/-- A number with any count of digits from `least` on. -/
def longNumber (least : Nat) : Reader Nat := fun t => number least t.length t

/-- The position in a list of names of the one at the front of the text, in any case of its ASCII
letters. -/
def nameAt (names : List Text) : Reader Nat := fun t =>
  (names.findIdx? fun n => (after? (lower n) (lower t)).isSome).map fun i =>
    (i, t.drop (names.getD i []).length)

/-- The short name of a day of the week. -/
def scanShortDay : Reader Nat := nameAt ((List.range 7).map shortDay)

/-- The short name of a month; the value counts from 1. -/
def scanShortMonth : Reader Nat := fun t =>
  (nameAt ((List.range 12).map fun i => shortMonth (i + 1)) t).map fun (i, r) => (i + 1, r)

/-- The name of a day of the week, short or in full. -/
def scanDay : Reader Nat := fun t =>
  (scanShortDay t).map fun (w, r) =>
    let ending := (dayNames.getD w "").toList.drop 3
    (w, if (after? (lower ending) (lower r)).isSome then r.drop ending.length else r)

/-- At least one blank. -/
def blanks (t : Text) : Option Text :=
  let r := trimStart t
  if r.length < t.length then some r else none

/-- Hours and minutes of an offset after its sign, with or without a colon between them, in
seconds. -/
def offsetDigits (colon : Bool) : Reader Nat := fun t => do
  let (hours, t) ← number 2 2 t
  let t ← if colon then after? ":" t else some t
  let (minutes, t) ← number 2 2 t
  if minutes < 60 then some (hours * 3600 + minutes * 60, t) else none

/-- An offset from universal time in seconds, with its sign. -/
def signedOffset (minus : Char → Bool) (colon : Bool) : Reader Int := fun t =>
  match t with
  | [] => none
  | c :: r =>
    if c = '+' then (offsetDigits colon r).map fun (s, r) => (Int.ofNat s, r)
    else if minus c then (offsetDigits colon r).map fun (s, r) => (-Int.ofNat s, r)
    else none

/-- The named zones with their hours from universal time. -/
def zones : List (String × Int) :=
  [("gmt", 0), ("ut", 0), ("z", 0), ("edt", -4), ("est", -5), ("cdt", -5), ("cst", -6),
   ("mdt", -6), ("mst", -7), ("pdt", -7), ("pst", -8)]

/-- The offset of a zone given by its name; a single letter other than J counts as universal
time. -/
def namedZone? (name : Text) : Option Int :=
  match zones.find? fun (z, _) => z.toList = lower name with
  | some (_, hours) => some (hours * 3600)
  | none => if name.length = 1 ∧ lower name ≠ "j".toList then some 0 else none

/-- A zone as in mail headers: a name, or an offset without a colon. -/
def mailZone : Reader Int := fun t =>
  let name := t.takeWhile Char.isAlpha
  if name.isEmpty then signedOffset (· == '-') false t
  else (namedZone? name).map fun s => (s, t.drop name.length)

/-- Reads on inside a comment, `depth` levels deep; a backslash takes the next character with
it. -/
def commentRest : (depth : Nat) → (escaped : Bool) → Text → Option Text
  | _, _, [] => none
  | depth, true, _ :: r => commentRest depth false r
  | depth, false, c :: r =>
    if c = '\\' then commentRest depth true r
    else if c = '(' then commentRest (depth + 1) false r
    else if c = ')' then if depth = 1 then some r else commentRest (depth - 1) false r
    else commentRest depth false r

/-- What follows a comment in parentheses at the start of a text, after blanks. -/
def comment? (t : Text) : Option Text :=
  match trimStart t with
  | '(' :: r => commentRest 1 false r
  | _ => none

/-- What follows all comments at the start of a text. Each one takes a character at least, so as
many steps as the text has characters are enough. -/
def skipComments (t : Text) : Text :=
  (List.range t.length).foldl (fun t _ => (comment? t).getD t) t

end Webroot.HttpDate
