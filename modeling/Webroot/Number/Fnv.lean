/-!
# FNV-1a digests

The 64-bit digest FNV-1a of a list of numbers. Each number is taken in as one word, by an exclusive
or and a multiplication that keeps the low 64 bits.
-/

namespace Webroot

/-- The digest FNV-1a. -/
def fnv1a (numbers : List Nat) : UInt64 :=
  numbers.foldl (fun h n => (h ^^^ n.toUInt64) * 0x100000001B3) 0xCBF29CE484222325

end Webroot
