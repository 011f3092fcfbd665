import Webroot.Glob.Pattern

/-!
# The notation of patterns

A pattern is written as a row of **parts**: characters that stand for themselves, `*`, `?`, a
backslash with a character, and brackets. What a part stands for is said here part by part, from how
it is written and without reading the text of the pattern again. A name is matched when it falls
into pieces for which the parts stand in order (`Denotes`).

The members of a bracket are read from left to right. A hyphen between two characters makes them the
ends of a range; any other hyphen is a member, and so is a closing bracket that comes first.
-/

namespace Webroot.Glob

/-! ### Brackets -/

/-- What may stand after an opening bracket to negate the class. -/
inductive Sign where
  | none
  | exclamation
  | caret
  deriving DecidableEq, Repr

/-- A sign as it is written. -/
def Sign.text : Sign → Text
  | none => []
  | exclamation => ['!']
  | caret => ['^']

/-- The members of a class as they are written: ranges, and characters as ranges of one. -/
def members : Text → List CharRange
  | lo :: '-' :: hi :: rest => ⟨lo, hi⟩ :: members rest
  | c :: rest => ⟨c, c⟩ :: members rest
  | [] => []

/-- A bracket that is closed, with at least one member. No sign is taken for a member, only the
first member may be a closing bracket, and every range runs upwards. -/
structure Bracket where
  sign : Sign
  first : Char
  others : Text
  unsigned : sign = .none → first ≠ '!' ∧ first ≠ '^'
  closed : ']' ∉ others
  ascending : ∀ r ∈ members (first :: others), r.lo ≤ r.hi

namespace Bracket

/-- What stands between the sign and the closing bracket. -/
def inner (b : Bracket) : Text := b.first :: b.others

/-- A bracket as it is written. -/
def text (b : Bracket) : Text := '[' :: (b.sign.text ++ (b.inner ++ [']']))

/-- A character belongs to a bracket when it lies in one of its members, or in none of them where
a sign negates the class. -/
def Holds (b : Bracket) (c : Char) : Prop :=
  (∃ r ∈ members b.inner, r.lo ≤ c ∧ c ≤ r.hi) ↔ b.sign = .none

end Bracket

/-! ### Parts -/

/-- A part of a pattern. -/
inductive Part where
  /-- A character that stands for itself. -/
  | plain (c : Char) (h : c ∉ ['*', '?', '[', '\\'])
  /-- A character after a backslash. -/
  | escaped (c : Char)
  | anyOne
  | anyRun
  | bracket (b : Bracket)

namespace Part

/-- A part as it is written. -/
def text : Part → Text
  | plain c _ => [c]
  | escaped c => ['\\', c]
  | anyOne => ['?']
  | anyRun => ['*']
  | bracket b => b.text

/-- The texts that a part stands for. -/
def Stands : Part → Text → Prop
  | plain c _, t => t = [c]
  | escaped c, t => t = [c]
  | anyOne, t => ∃ c, c ≠ '/' ∧ t = [c]
  | anyRun, t => '/' ∉ t
  | bracket b, t => ∃ c, b.Holds c ∧ t = [c]

end Part

/-- A pattern as it is written. -/
def written (p : List Part) : Text := p.flatMap Part.text

/-- A pattern **denotes** a name when the name is one piece for each part, in order, and each part
stands for its piece. -/
def Denotes : List Part → Text → Prop
  | [], name => name = []
  | a :: p, name => ∃ piece rest, name = piece ++ rest ∧ a.Stands piece ∧ Denotes p rest

end Webroot.Glob
