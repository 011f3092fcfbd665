import Webroot.Glob.Footprint

/-!
# Glob patterns, read

A backslash makes the next character plain. A bracket opens a class: `!` or `^` negates it, and
the first member may be a closing bracket. In a class `x-y` is a range, a hyphen that is first or
last stands for itself, and two hyphens in a row take the members after them out of the class
again. A bracket that is never closed stands for itself, and so does all that follows it. A
pattern with a range that runs downwards stands for its own text, and so does one with a class
that is nested too deeply or one that is too large; a text that is too large itself stands for
nothing.
-/

namespace Webroot.Glob

/-! ### Classes -/

/-- The members of a class and those of every removal, in order. -/
structure Members where
  kept : List CharRange := []
  removed : List (List CharRange) := []
  deriving DecidableEq, Repr

/-- One range more among the members. -/
def Members.add (m : Members) (lo hi : Char) : Members := { m with kept := ⟨lo, hi⟩ :: m.kept }

/-- The end of a range that a hyphen at the front of the text begins, if it begins one. -/
def rangeEnd? : Text → Option Char
  | '-' :: d :: _ => if d = '-' then none else some d
  | _ => none

/-- The members in the text of a class, after `skip` characters that are read already. With
`plain`, a hyphen in front is a member. No members when a range runs downwards. -/
def members? (plain : Bool) : (skip : Nat) → Text → Option Members
  | _, [] => some {}
  | n + 1, _ :: r => members? false n r
  | 0, c :: r =>
    if c = '-' ∧ plain = false ∧ r.head? = some '-' then
      (members? false 1 r).map fun m => { removed := m.kept :: m.removed }
    else
      match rangeEnd? r with
      | none => (members? false 0 r).map fun m => m.add c c
      | some d => if c ≤ d then (members? false 2 r).map fun m => m.add c d else none

/-- How deep the members lie in a pattern: below the pattern and the class, one level more for
every removal after them, and one more where several stand together. -/
def Members.depth (m : Members) : Nat :=
  let several := fun rs : List CharRange => decide (1 < rs.length)
  2 + m.removed.length + (if several m.kept || m.removed.head?.any several then 1 else 0)

/-- The greatest depth. -/
def maxDepth : Nat := 250

/-- The class with this text between the brackets, after the sign of a negation; none when a range
runs downwards or when its members lie too deep. -/
def charClass? (negated : Bool) (text : Text) : Option CharClass := do
  let lead := if negated then text.takeWhile (· == '-') else []
  let rest := text.drop lead.length
  let members : Option Members :=
    match lead, rest with
    | [], ']' :: r => (members? false 0 r).map fun m => m.add ']' ']'
    | _, rest => members? true 0 rest
  let hyphens := lead.map fun c => CharRange.mk c c
  let m ← members
  let m := { m with kept := hyphens ++ m.kept }
  if m.depth ≤ maxDepth then
    some { negated, members := m.kept, removed := m.removed.flatten }
  else none

/-- What follows an opening bracket: whether the class is negated, its text, and what follows the
closing bracket, if there is one. -/
def bracket? (r : Text) : Option (Bool × Text × Text) :=
  let negated := r.head? = some '!' ∨ r.head? = some '^'
  match if negated then r.drop 1 else r with
  | [] => none
  | c :: r => (Text.cut ']' r).map fun (text, rest) => (decide negated, c :: text, rest)

theorem cut_length {sep : Char} {t a b : Text} (h : Text.cut sep t = some (a, b)) :
    b.length < t.length := by
  induction t generalizing a with
  | nil => simp [Text.cut] at h
  | cons c r ih =>
    simp only [Text.cut] at h
    split at h
    · simp only [Option.some.injEq, Prod.mk.injEq] at h
      simp [h.2]
    · simp only [Option.map_eq_some_iff, Prod.exists, Prod.mk.injEq] at h
      obtain ⟨a', b', h, -, rfl⟩ := h
      have := ih h
      simp only [List.length_cons]
      omega

theorem bracket?_length {r text rest : Text} {negated : Bool}
    (h : bracket? r = some (negated, text, rest)) : rest.length < r.length := by
  simp only [bracket?] at h
  split at h
  · simp at h
  · rename_i c r' heq
    simp only [Option.map_eq_some_iff, Prod.exists, Prod.mk.injEq] at h
    obtain ⟨a, b, h, -, -, rfl⟩ := h
    have h1 := cut_length h
    have h2 := congrArg List.length heq
    split at h2 <;> simp only [List.length_drop, List.length_cons] at h2 <;> omega

/-! ### Patterns -/

/-- The atoms of a pattern; none when a class is refused. -/
def atoms? : Text → Option (List Atom)
  | [] => some []
  | c :: r =>
    if c = '*' then (atoms? r).map (.anyRun :: ·)
    else if c = '?' then (atoms? r).map (.anyOne :: ·)
    else if c = '[' then
      match h : bracket? r with
      | none => some ((c :: r).map .literal)
      | some (negated, text, rest) => do
        have := bracket?_length h
        let k ← charClass? negated text
        let p ← atoms? rest
        some (.oneOf k :: p)
    else if c = '\\' then
      match r with
      | [] => some []
      | d :: r' => (atoms? r').map (.literal d :: ·)
    else (atoms? r).map (.literal c :: ·)
  termination_by t => t.length
  decreasing_by all_goals simp only [List.length_cons] at *; omega

/-- The atoms, unless they are too large. -/
def sized (p : Option (List Atom)) : Option (List Atom) :=
  p.filter fits

/-- The pattern that a text denotes: its atoms, or the text itself in their place. -/
def ofText? (t : Text) : Option (List Atom) :=
  (sized (atoms? t)).or (sized (some (t.map .literal)))

end Webroot.Glob
