import Webroot.Text.Basic

/-!
# Sets of characters given by ranges of code points

A set may be given by ranges in any order that overlap or touch. Its **spans** are the fewest
ranges with the same characters, in order.
-/

namespace Webroot

/-- A set of characters, as ranges of code points with both ends included. -/
abbrev CharSet := List (Nat × Nat)

namespace CharSet

/-- Whether the character's code point lies in one of the ranges. -/
def has (s : CharSet) (c : Char) : Bool :=
  s.any fun (lo, hi) => lo ≤ c.toNat && c.toNat ≤ hi

/-- The greatest code point. -/
def last : Nat := 0x10FFFF

/-- Joins a range with the ranges after it, which start no earlier. -/
def joinFrom (lo hi : Nat) : CharSet → CharSet
  | [] => [(lo, hi)]
  | (lo', hi') :: rest =>
    if lo' ≤ hi + 1 then joinFrom lo (Nat.max hi hi') rest else (lo, hi) :: joinFrom lo' hi' rest

/-- The fewest ranges for the set, in order. -/
def spans (s : CharSet) : CharSet :=
  match s.mergeSort fun a b => Nat.ble a.1 b.1 with
  | [] => []
  | (lo, hi) :: rest => joinFrom lo hi rest

/-- The ranges from `lo` on that spans in order leave out. -/
def gapsFrom (lo : Nat) : CharSet → CharSet
  | [] => if lo ≤ last then [(lo, last)] else []
  | (a, b) :: rest => if lo < a then (lo, a - 1) :: gapsFrom (b + 1) rest else gapsFrom (b + 1) rest

/-- The code points that are not in the set. -/
def complement (s : CharSet) : CharSet := gapsFrom 0 s.spans

/-- The set without the surrogates, which are code points but no characters. -/
def characters (s : CharSet) : CharSet :=
  (s.flatMap fun (lo, hi) => [(lo, Nat.min hi 0xD7FF), (Nat.max lo 0xE000, hi)]).filter
    fun (lo, hi) => lo ≤ hi

end CharSet

end Webroot
