/-!
# Texts and octets

A **text** is a list of characters and **octets** are a list of bytes. Everything the library
reads or writes is one of the two, so splitting, trimming and joining are list recursions and
their laws are laws of lists.
-/

namespace Webroot

/-- A text: its characters in order. -/
abbrev Text := List Char

/-- A string of bytes. -/
abbrev Octets := List UInt8

/-- A string literal may stand where a text is wanted. -/
instance : Coe String Text := ⟨String.toList⟩

namespace Text

/-! ### Cutting at a separator -/

/-- The part before the first `sep` and the part after it, if there is a `sep`. -/
def cut (sep : Char) : Text → Option (Text × Text)
  | [] => none
  | c :: r => if c = sep then some ([], r) else (cut sep r).map fun (a, b) => (c :: a, b)

/-- What follows `start` in a text that begins with `start`. -/
def after? : (start : Text) → Text → Option Text
  | [], t => some t
  | _ :: _, [] => none
  | p :: ps, c :: cs => if p = c then after? ps cs else none

/-- The part before the first occurrence of `sep` and the part after it, if `sep` occurs. -/
def cutAt (sep : Text) : Text → Option (Text × Text)
  | [] => (after? sep []).map fun rest => ([], rest)
  | c :: r =>
    match after? sep (c :: r) with
    | some rest => some ([], rest)
    | none => (cutAt sep r).map fun (a, b) => (c :: a, b)

/-- The lines of a text: the pieces between the line ends CR LF, at least one. -/
def lines : Text → List Text
  | [] => [[]]
  | c :: r =>
    match c, r with
    | '\r', '\n' :: r' => [] :: lines r'
    | c, r => (lines r).modifyHead (c :: ·)

/-! ### Trimming -/

/-- The text without the characters in `p` at its end. -/
def trimEnd (p : Char → Bool) (t : Text) : Text :=
  (t.reverse.dropWhile p).reverse

/-- The text without the characters in `p` at either end. -/
def trimBoth (p : Char → Bool) (t : Text) : Text :=
  trimEnd p (t.dropWhile p)

/-! ### ASCII letter case -/

/-- The text with its ASCII letters in lower case. -/
def lower (t : Text) : Text := t.map Char.toLower

/-- The text with its ASCII letters in upper case. -/
def upper (t : Text) : Text := t.map Char.toUpper

/-- Two texts that differ at most in the case of ASCII letters. -/
def SameLetters (a b : Text) : Prop := lower a = lower b

instance (a b : Text) : Decidable (SameLetters a b) := inferInstanceAs (Decidable (_ = _))

/-! ### Joining -/

/-- The texts one after another with `sep` between neighbours. -/
def join (sep : Text) : List Text → Text
  | [] => []
  | [t] => t
  | t :: u :: ts => t ++ sep ++ join sep (u :: ts)

end Text

end Webroot
