import Webroot.Text.Basic

/-!
# Numerals

Decimal and hexadecimal numerals of whole numbers, written and read.
-/

namespace Webroot.Text

/-- The decimal numeral of a number, without leading zeros. -/
def decimal (n : Nat) : Text := Nat.toDigits 10 n

/-- The hexadecimal numeral of a number, in lower case and without leading zeros. -/
def hex (n : Nat) : Text := Nat.toDigits 16 n

/-- The decimal numeral of a number, filled up with zeros in front to `width` characters. -/
def decimalWide (width n : Nat) : Text :=
  List.replicate (width - (decimal n).length) '0' ++ decimal n

/-- The number that a text of decimal digits denotes; leading zeros are allowed. -/
def readDecimal? (t : Text) : Option Nat :=
  if !t.isEmpty && t.all Char.isDigit then some (Nat.ofDigitChars 10 t 0) else none

/-- The value of a hexadecimal digit of either case. -/
def hexValue? (b : UInt8) : Option UInt8 :=
  if 48 ≤ b ∧ b ≤ 57 then some (b - 48)
  else if 97 ≤ b ∧ b ≤ 102 then some (b - 87)
  else if 65 ≤ b ∧ b ≤ 70 then some (b - 55)
  else none

/-- The upper-case hexadecimal digit of a value below sixteen. -/
def hexDigit (v : Nat) : Char :=
  if v < 10 then Char.ofNat (48 + v) else Char.ofNat (55 + v)

end Webroot.Text
