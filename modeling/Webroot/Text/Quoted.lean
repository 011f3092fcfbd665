import Webroot.Text.Numeral
import Webroot.Text.Printable

/-!
# Quoted texts

A text between double quotes on one line: the quote and the backslash get a backslash, the
common controls their letter, and every other character that does not print on its own its code
point in braces.
-/

namespace Webroot.Text

/-- The quoted form of one character. -/
def quoteChar (c : Char) : Text :=
  match c with
  | '"' => "\\\""
  | '\\' => "\\\\"
  | '\n' => "\\n"
  | '\r' => "\\r"
  | '\t' => "\\t"
  | '\x00' => "\\0"
  | c => if printsAlone c then [c] else "\\u\x7b" ++ hex c.toNat ++ "\x7d"

/-- A text between double quotes. -/
def quoted (t : Text) : Text := '"' :: t.flatMap quoteChar ++ ['"']

/-- Texts in brackets, each quoted, with commas between them. -/
def quotedList (ts : List Text) : Text := "[" ++ join ", " (ts.map quoted) ++ "]"

end Webroot.Text
