import Webroot.Text.Basic

/-!
# Glob patterns

A pattern is a list of atoms. `*` stands for any characters other than a slash, `?` for one such
character, a class in brackets for one of its members, and everything else for itself.

`Matches` is the meaning of a pattern. `accepts` decides it from the last atom to the first: for
each atom a row says, for every end piece of the name, whether the atoms from there on match it.
Main statement: `accepts_iff`, a pattern is accepted exactly when it matches.
-/

namespace Webroot.Glob

/-- The characters from `lo` to `hi`, both included. -/
structure CharRange where
  lo : Char
  hi : Char
  deriving DecidableEq, Repr

/-- Whether a character lies in one of the ranges. -/
def inRanges (rs : List CharRange) (c : Char) : Bool := rs.any fun r => r.lo ≤ c && c ≤ r.hi

/-- A class in brackets: its members, those taken out again, and whether it is negated. -/
structure CharClass where
  negated : Bool
  members : List CharRange
  removed : List CharRange
  deriving DecidableEq, Repr

/-- Whether a character belongs to a class. -/
def CharClass.has (k : CharClass) (c : Char) : Bool :=
  (inRanges k.members c && !inRanges k.removed c) != k.negated

/-- A part of a pattern. -/
inductive Atom where
  /-- The character itself. -/
  | literal (c : Char)
  /-- One character other than a slash. -/
  | anyOne
  /-- Any number of characters other than a slash. -/
  | anyRun
  /-- One character of a class. -/
  | oneOf (k : CharClass)
  deriving DecidableEq, Repr

/-- Whether an atom that stands for one character stands for this one. -/
def Atom.takes : Atom → Char → Bool
  | literal a, c => c == a
  | anyOne, c => c != '/'
  | anyRun, _ => false
  | oneOf k, c => k.has c

/-! ### Meaning -/

/-- The names that a pattern stands for. -/
inductive Matches : List Atom → Text → Prop where
  | nil : Matches [] []
  | one {a p c t} : a.takes c = true → Matches p t → Matches (a :: p) (c :: t)
  | runEnd {p t} : Matches p t → Matches (.anyRun :: p) t
  | runMore {p c t} : c ≠ '/' → Matches (.anyRun :: p) t → Matches (.anyRun :: p) (c :: t)

/-! ### Matching by rows -/

/-- The row for a run of characters before the atoms of `row`. -/
def runRow : Text → List Bool → List Bool
  | [], row => row
  | c :: t, b :: row =>
    let rest := runRow t row
    (b || (c != '/' && rest.headD false)) :: rest
  | _ :: _, [] => []

/-- The row for one character before the atoms of `row`. -/
def oneRow (a : Atom) : Text → List Bool → List Bool
  | [], _ => [false]
  | c :: t, _ :: row => (a.takes c && row.headD false) :: oneRow a t row
  | _ :: _, [] => []

/-- For every end piece of a name, the longest first, whether the pattern matches it. -/
def row : List Atom → Text → List Bool
  | [], t => t.map (fun _ => false) ++ [true]
  | .anyRun :: p, t => runRow t (row p t)
  | a :: p, t => oneRow a t (row p t)

/-- Whether a pattern matches a whole name. -/
def accepts (p : List Atom) (name : Text) : Bool := (row p name).headD false

/-! ### Rows follow the meaning -/

theorem row_eq_cons (p : List Atom) (c : Char) (t : Text) :
    ∃ b, row p (c :: t) = b :: row p t := by
  induction p with
  | nil => exact ⟨false, rfl⟩
  | cons a p ih =>
    obtain ⟨b, hb⟩ := ih
    cases a <;> simp [row, hb, runRow, oneRow]

/-- The row of a longer name continues the row of its end piece. -/
theorem row_cons (p : List Atom) (c : Char) (t : Text) :
    row p (c :: t) = accepts p (c :: t) :: row p t := by
  obtain ⟨b, hb⟩ := row_eq_cons p c t
  rw [accepts, hb]
  rfl

theorem accepts_nil (t : Text) : accepts [] t = t.isEmpty := by
  cases t <;> rfl

theorem accepts_run_cons (p : List Atom) (c : Char) (t : Text) :
    accepts (.anyRun :: p) (c :: t) =
      (accepts p (c :: t) || (c != '/' && accepts (.anyRun :: p) t)) := by
  rw [accepts, row, row_cons, runRow]
  rfl

theorem accepts_one_nil {a : Atom} (ha : a ≠ .anyRun) (p : List Atom) :
    accepts (a :: p) [] = false := by
  cases a <;> first | rfl | contradiction

theorem accepts_one_cons {a : Atom} (ha : a ≠ .anyRun) (p : List Atom) (c : Char) (t : Text) :
    accepts (a :: p) (c :: t) = (a.takes c && accepts p t) := by
  cases a with
  | anyRun => contradiction
  | literal | anyOne | oneOf => rw [accepts, row, row_cons, oneRow]; rfl; simp

theorem accepts_of_matches {p : List Atom} {t : Text} (h : Matches p t) : accepts p t = true := by
  induction h with
  | nil => rfl
  | @one a p c t ha _ ih =>
    have hr : a ≠ .anyRun := by rintro rfl; simp [Atom.takes] at ha
    rw [accepts_one_cons hr, ha, ih]
    rfl
  | @runEnd p t _ ih =>
    cases t with
    | nil => exact ih
    | cons c t => rw [accepts_run_cons, ih]; rfl
  | runMore hc _ ih => rw [accepts_run_cons, ih]; simp [hc]

theorem matches_of_accepts {p : List Atom} {t : Text} (h : accepts p t = true) : Matches p t := by
  induction p generalizing t with
  | nil =>
    rw [accepts_nil, List.isEmpty_iff] at h
    exact h ▸ .nil
  | cons a p ihp =>
    by_cases ha : a = .anyRun
    · subst ha
      induction t with
      | nil => exact .runEnd (ihp h)
      | cons c t iht =>
        rw [accepts_run_cons, Bool.or_eq_true, Bool.and_eq_true, bne_iff_ne] at h
        rcases h with h | ⟨hc, h⟩
        · exact .runEnd (ihp h)
        · exact .runMore hc (iht h)
    · cases t with
      | nil => rw [accepts_one_nil ha] at h; contradiction
      | cons c t =>
        rw [accepts_one_cons ha, Bool.and_eq_true] at h
        exact .one h.1 (ihp h.2)

/-- Matching by rows decides the meaning. -/
theorem accepts_iff {p : List Atom} {t : Text} : accepts p t = true ↔ Matches p t :=
  ⟨matches_of_accepts, accepts_of_matches⟩

end Webroot.Glob
