import Webroot.Text.Numeral

/-!
# Entity tags
-/

namespace Webroot.Http

open Text

/-- The hexadecimal numeral of an integer as a 64-bit word, in two's complement. -/
def hexWord (i : Int) : Text := hex (i % 0x10000000000000000).toNat

/-- The tag of a file: its serial number, its size and the second of its last change. -/
def entityTag (serial size : Nat) (changed : Int) : Text :=
  "\"" ++ hex serial ++ "-" ++ hex size ++ "-" ++ hexWord changed ++ "\""

end Webroot.Http
