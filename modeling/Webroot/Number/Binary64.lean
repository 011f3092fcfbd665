/-!
# Rounding to binary floating point

A nonnegative fraction is rounded to the nearest number with 53 significant bits and no bit
below 2 ^ -1074, a tie to the even neighbour. The result is counted in units of 2 ^ -1074, so
that rounded numbers are compared as whole numbers; everything from 2 ^ 1024 on counts as
2 ^ 1024.
-/

namespace Webroot.Binary64

/-- The whole number nearest to `n / d`, of two the even one. -/
def roundDiv (n d : Nat) : Nat :=
  let q := n / d
  let r := n % d
  if d < 2 * r ∨ (2 * r = d ∧ q % 2 = 1) then q + 1 else q

/-- The count that stands for 2 ^ 1024 and everything beyond. -/
def limit : Nat := 1 <<< 2098

/-- The rounded value of `n / d` in units of 2 ^ -1074. -/
def units (n d : Nat) : Nat :=
  let scaled := n <<< 1074
  let ulp := 1 <<< ((scaled / d).log2 - 52)
  min (roundDiv scaled (d * ulp) * ulp) limit

end Webroot.Binary64
