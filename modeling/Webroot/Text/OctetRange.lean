import Webroot.Text.CharSet

/-!
# Ranges of characters as ranges of octets

The UTF-8 forms of the characters in a range of code points, as **rows**: a row has one range of
octets for each octet of a form, and stands for every form whose octets lie in its ranges. Code
points with forms of different lengths lie in different rows, and the surrogates in none.
-/

namespace Webroot.Utf8

/-- The octets between two octets, both included. -/
abbrev OctetRange := Nat × Nat

/-- The octets that may follow the first one. -/
def continuation : OctetRange := (0x80, 0xBF)

/-- The rows for the numbers `lo … hi` written with `rest` digits of six bits after a first digit,
which is written as an octet from `first` on. Numbers with one first digit are taken together;
of more than one, those between the first and the last digit fill their row. -/
def rowsOf : (rest first lo hi : Nat) → List (List OctetRange)
  | 0, first, lo, hi => [[(first + lo, first + hi)]]
  | rest + 1, first, lo, hi =>
    let unit := Nat.pow 0x40 (rest + 1)
    let below := fun digit a b => (rowsOf rest 0x80 a b).map ((first + digit, first + digit) :: ·)
    let a := lo / unit
    let b := hi / unit
    if a = b then below a (lo % unit) (hi % unit)
    else
      let startsFull := lo % unit = 0
      let endsFull := hi % unit + 1 = unit
      let a' := if startsFull then a else a + 1
      let b' := if endsFull then b + 1 else b
      (if startsFull then [] else below a (lo % unit) (unit - 1)) ++
        (if a' < b' then
          [(first + a', first + b' - 1) :: List.replicate (rest + 1) continuation] else []) ++
        (if endsFull then [] else below b 0 (hi % unit))

/-- The lengths of UTF-8 forms: the code points, the number of octets after the first one, and
where the first one starts. -/
def lengths : List ((Nat × Nat) × Nat × Nat) :=
  [((0, 0x7F), 0, 0), ((0x80, 0x7FF), 1, 0xC0), ((0x800, 0xD7FF), 2, 0xE0),
   ((0xE000, 0xFFFF), 2, 0xE0), ((0x10000, 0x10FFFF), 3, 0xF0)]

/-- The rows for the code points `lo … hi`. -/
def rows (lo hi : Nat) : List (List OctetRange) :=
  lengths.flatMap fun ((a, b), rest, first) =>
    if Nat.max lo a ≤ Nat.min hi b then rowsOf rest first (Nat.max lo a) (Nat.min hi b) else []

end Webroot.Utf8
