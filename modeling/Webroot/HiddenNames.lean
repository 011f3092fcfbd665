import Webroot.Glob.Parser

/-!
# Hidden names

A mount hides names by glob patterns: a hidden name is neither served nor listed.
-/

namespace Webroot

/-- A pattern together with the text that it was read from. -/
structure HiddenPattern where
  text : Text
  atoms : List Glob.Atom
  deriving DecidableEq, Repr

/-- The first of some patterns that matches a name. -/
def HiddenPattern.first? (ps : List HiddenPattern) (name : Text) : Option HiddenPattern :=
  ps.find? fun p => Glob.accepts p.atoms name

/-- The texts of the patterns of hidden names, in order. -/
abbrev HiddenNames := List Text

namespace HiddenNames

/-- The patterns that stand for anything: those that are not too large. -/
def patterns (h : HiddenNames) : List HiddenPattern :=
  h.filterMap fun text => (Glob.ofText? text).map fun atoms => ⟨text, atoms⟩

/-- The text of the first pattern that matches a name. -/
def pattern? (h : HiddenNames) (name : Text) : Option Text :=
  (HiddenPattern.first? h.patterns name).map (·.text)

/-- Whether a pattern matches the name. -/
def hides (h : HiddenNames) (name : Text) : Bool := (HiddenPattern.first? h.patterns name).isSome

theorem hides_eq (h : HiddenNames) (name : Text) : h.hides name = (h.pattern? name).isSome := by
  simp [hides, pattern?]

end HiddenNames

end Webroot
