import Webroot.Text.Basic

/-!
# Readers

A **reader** takes a piece off the front of a text: it gives the value of the piece and the text
after it, or nothing when the text does not begin with such a piece.
-/

namespace Webroot

/-- A reader of pieces with values in `α`. -/
abbrev Reader (α : Type) := Text → Option (α × Text)

namespace Reader

/-- Reads a fixed text. -/
def exactly (t : Text) : Reader Unit := fun s => (Text.after? t s).map fun r => ((), r)

/-- Reads with the first of two readers that succeeds. -/
def orElse (a b : Reader α) : Reader α := fun s =>
  match a s with
  | some x => some x
  | none => b s

/-- Reads a piece if there is one. -/
def optional (a : Reader α) : Reader (Option α) := fun s =>
  match a s with
  | some (x, r) => some (some x, r)
  | none => some (none, s)

/-- Reads as many pieces as there are, at most `fuel` many. -/
def many (a : Reader α) : (fuel : Nat) → Text → List α × Text
  | 0, s => ([], s)
  | fuel + 1, s =>
    match a s with
    | none => ([], s)
    | some (x, r) =>
      let (xs, rest) := many a fuel r
      (x :: xs, rest)

/-- Reads one or more pieces with a separator between neighbours. A separator with no piece after
it is left alone. Pieces take up characters, so there are at most as many as the text has. -/
def separated (sep : Reader Unit) (a : Reader α) : Reader (List α) := fun s => do
  let (x, r) ← a s
  let (xs, rest) := many (fun t => (sep t).bind fun (_, t) => a t) s.length r
  some (x :: xs, rest)

end Reader

end Webroot
