import Std.Data.ExtTreeMap
import Webroot.Url.Percent

/-!
# Query strings
-/

namespace Webroot

/-- A finite map from texts to values. Two tables with the same look-ups are equal. -/
abbrev Table (α : Type) := Std.ExtTreeMap Text α

namespace Url

open Text

/-- The name and the value of one parameter; without `=` the value is empty. -/
def parameter (pair : Text) : Text × Text :=
  let (name, value) := (cut '=' pair).getD (pair, [])
  (unescapeForm name, unescapeForm value)

/-- The nonempty pieces of a query string between the separators `&` and `;`. -/
def parameterTexts (query : Text) : List Text :=
  (query.splitOnP fun c => c == '&' || c == ';').filter fun pair => !pair.isEmpty

/-- The parameters of a query string. Of several with one name the first counts. -/
def parameters (query : Text) : Table Text :=
  (parameterTexts query).foldl (fun table pair =>
    let (name, value) := parameter pair
    table.insertIfNew name value) ∅

end Url

end Webroot
