import Webroot.Text.Basic

/-!
# Text inside markup
-/

namespace Webroot.Page

/-- The form of one character inside markup. -/
def escapeChar (c : Char) : Text :=
  match c with
  | '&' => "&amp;"
  | '<' => "&lt;"
  | '>' => "&gt;"
  | '"' => "&quot;"
  | '\'' => "&#39;"
  | c => [c]

/-- A text as it stands in markup or in an attribute between quotes. -/
def escape (t : Text) : Text := t.flatMap escapeChar

end Webroot.Page
