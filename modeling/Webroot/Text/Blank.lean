import Webroot.Text.CharSet

/-!
# White space

The 25 characters with the property `White_Space`, and the operations on texts that depend on
them: trimming and cutting into words.
-/

namespace Webroot.Text

/-- The characters with the property `White_Space`. -/
def whiteSpace : CharSet :=
  [(0x9, 0xD), (0x20, 0x20), (0x85, 0x85), (0xA0, 0xA0), (0x1680, 0x1680), (0x2000, 0x200A),
   (0x2028, 0x2029), (0x202F, 0x202F), (0x205F, 0x205F), (0x3000, 0x3000)]

/-- Whether a character is white space. -/
def isBlank (c : Char) : Bool := whiteSpace.has c

/-- The text without white space at its start. -/
def trimStart (t : Text) : Text := t.dropWhile isBlank

/-- The text without white space at either end. -/
def trim (t : Text) : Text := trimBoth isBlank t

/-- The maximal pieces of a text that hold no white space. -/
def words (t : Text) : List Text :=
  (t.splitOnP isBlank).filter fun w => !w.isEmpty

end Webroot.Text
