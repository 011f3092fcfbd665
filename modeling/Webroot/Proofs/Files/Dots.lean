import Mathlib.Tactic.SplitIfs
import Webroot.Files.Tree
import Webroot.Proofs.Text.Utf8

/-!
# Paths that end in dots

A path whose last piece is empty, `.` or `..` leads to a directory or nowhere, whatever the tree
and its links: the last step only stays or goes up, and both start from a directory.

The walk is followed with two facts about the place it has come to. All places above it are
directories (`Grounded`), so that going up arrives at a directory; and the steps still to be taken
end in dots (`EndsInDots`), which a link on the way does not change, since its steps are put in
front. Main statement: `isFile_eq_false_of_dots`.
-/

namespace Webroot.FileTree

/-- A place is **grounded** when all places above it are directories. -/
def Grounded (t : FileTree) (p : Place) : Prop :=
  ∀ n, n < p.length → ∃ i, t.item? (p.take n) = some i ∧ i.isDirectory = true

/-- Steps **end in dots** when the last one stays or goes up. -/
def EndsInDots (steps : List Octets) : Prop :=
  steps.getLast? = some dot ∨ steps.getLast? = some dots

/-! ### Grounded places -/

theorem grounded_nil (t : FileTree) : t.Grounded [] := fun n hn => absurd hn (Nat.not_lt_zero n)

theorem Grounded.child {t : FileTree} {p : Place} {i : Item} (h : t.Grounded p)
    (hi : t.item? p = some i) (hdir : i.isDirectory = true) (name : Octets) :
    t.Grounded (p ++ [name]) := by
  intro n hn
  rw [List.length_append, List.length_singleton] at hn
  rw [List.take_append_of_le_length (by omega)]
  rcases Nat.lt_or_ge n p.length with hlt | hge
  · exact h n hlt
  · exact ⟨i, by rw [List.take_of_length_le hge, hi], hdir⟩

theorem Grounded.parent {t : FileTree} {p : Place} (h : t.Grounded p) : t.Grounded p.dropLast := by
  intro n hn
  rw [List.length_dropLast] at hn
  rw [List.dropLast_eq_take, List.take_take, Nat.min_eq_left (by omega)]
  exact h n (by omega)

/-- Going up from a grounded directory arrives at a directory. -/
theorem Grounded.isDirectory_parent {t : FileTree} {p : Place} {i up : Item} (h : t.Grounded p)
    (hi : t.item? p = some i) (hdir : i.isDirectory = true) (hup : t.item? p.dropLast = some up) :
    up.isDirectory = true := by
  cases hp : p with
  | nil =>
    -- the root is its own parent
    rw [hp] at hi hup
    rw [List.dropLast_nil, hi] at hup
    exact Option.some.inj hup ▸ hdir
  | cons a as =>
    have hlt : p.length - 1 < p.length := by simp [hp]
    obtain ⟨j, hj, hjdir⟩ := h _ hlt
    rw [← List.dropLast_eq_take, hup] at hj
    exact Option.some.inj hj ▸ hjdir

/-! ### Steps that end in dots -/

theorem EndsInDots.tail {name : Octets} {rest : List Octets} (h : EndsInDots (name :: rest))
    (hrest : rest ≠ []) : EndsInDots rest := by
  obtain ⟨a, as, rfl⟩ := List.exists_cons_of_ne_nil hrest
  simpa [EndsInDots, List.getLast?_cons_cons] using h

theorem EndsInDots.of_append {before rest : List Octets} (h : EndsInDots rest) :
    EndsInDots (before ++ rest) := by
  rcases h with h | h <;> simp [EndsInDots, List.getLast?_append, h]

theorem EndsInDots.ne_nil {steps : List Octets} (h : EndsInDots steps) : steps ≠ [] := by
  rintro rfl
  simp [EndsInDots] at h

/-- A last name that is not dots leaves no dots to the end. -/
theorem EndsInDots.singleton {name : Octets} (h : EndsInDots [name]) :
    name = dot ∨ name = dots := by
  simpa [EndsInDots] using h

/-! ### Following steps that end in dots -/

/-- A walk **keeps dots** when it comes to a directory, or to a link in a grounded directory with
steps after it that end in dots. -/
def Walk.KeepsDots (t : FileTree) : Walk → Prop
  | .arrived _ i => i.isDirectory = true
  | .link dir _ rest => t.Grounded dir ∧ EndsInDots rest
  | .lost _ => True

/-- A walk along steps that end in dots keeps dots. -/
theorem walk_keepsDots {t : FileTree} {here : Place} {item : Item} {steps : List Octets}
    (hitem : t.item? here = some item) (hground : t.Grounded here) (hdots : EndsInDots steps) :
    (t.walk here item steps).KeepsDots t := by
  induction steps generalizing here item with
  | nil => exact absurd rfl hdots.ne_nil
  | cons name rest ih =>
    rw [walk]
    by_cases hdir : item.isDirectory = true
    · rw [hdir, Bool.not_true, if_neg Bool.false_ne_true]
      split_ifs with hdot hdotdot hlong
      · -- `.` stays where it is
        by_cases hrest : rest = []
        · subst hrest
          exact hdir
        · exact ih hitem hground (hdots.tail hrest)
      · -- `..` goes up
        split
        · rename_i up hup
          have hupdir := hground.isDirectory_parent hitem hdir hup
          by_cases hrest : rest = []
          · subst hrest
            exact hupdir
          · exact ih hup hground.parent (hdots.tail hrest)
        · trivial
      · trivial
      · -- a name that is not dots is not the last step
        have hrest : rest ≠ [] := by
          rintro rfl
          rcases hdots.singleton with h | h
          · exact hdot h
          · exact hdotdot h
        split
        · trivial
        · rename_i next hnext
          split
          · exact ⟨hground, hdots.tail hrest⟩
          · exact ih hnext (hground.child hitem hdir name) (hdots.tail hrest)
    · rw [if_pos (by simp [hdir])]
      trivial

/-- How following steps can succeed: the walk arrives, or it comes to a link that may still be
followed and succeeds from there. -/
theorem follow_eq_ok {t : FileTree} {links : Nat} {here place : Place} {steps : List Octets}
    {i : Item} (h : t.follow links here steps = .ok (place, i)) :
    ∃ item, t.item? here = some item ∧
      (t.walk here item steps = .arrived place i ∨
        ∃ links' dir target rest, links = links' + 1 ∧
          t.walk here item steps = .link dir target rest ∧
          t.follow links' (if target.head? == some slash then [] else dir)
            (FileTree.steps target ++ rest) = .ok (place, i)) := by
  rw [follow.eq_def] at h
  cases hitem : t.item? here with
  | none => simp [hitem] at h
  | some item =>
    refine ⟨item, rfl, ?_⟩
    simp only [hitem] at h
    cases hw : t.walk here item steps with
    | arrived p j =>
      simp only [hw, Except.ok.injEq, Prod.mk.injEq] at h
      obtain ⟨rfl, rfl⟩ := h
      exact .inl rfl
    | lost e => simp [hw] at h
    | link dir target rest =>
      simp only [hw] at h
      cases links with
      | zero => simp at h
      | succ links => exact .inr ⟨links, dir, target, rest, rfl, rfl, h⟩

/-- Steps that end in dots lead from a grounded place to a directory if they lead anywhere. -/
theorem isDirectory_of_follow {t : FileTree} {links : Nat} {here place : Place}
    {steps : List Octets} {i : Item} (hground : t.Grounded here) (hdots : EndsInDots steps)
    (h : t.follow links here steps = .ok (place, i)) : i.isDirectory = true := by
  induction links generalizing here steps with
  | zero =>
    obtain ⟨item, hitem, hw | ⟨_, _, _, _, hlinks, -⟩⟩ := follow_eq_ok h
    · have hkeeps := walk_keepsDots hitem hground hdots
      rwa [hw] at hkeeps
    · cases hlinks
  | succ links ih =>
    obtain ⟨item, hitem, hw | ⟨links', dir, target, rest, hlinks, hw, hrest⟩⟩ := follow_eq_ok h
    · have hkeeps := walk_keepsDots hitem hground hdots
      rwa [hw] at hkeeps
    · have hkeeps := walk_keepsDots hitem hground hdots
      rw [hw] at hkeeps
      obtain rfl : links = links' := Nat.succ.inj hlinks
      refine ih ?_ hkeeps.2.of_append hrest
      split_ifs
      · exact t.grounded_nil
      · exact hkeeps.1

/-! ### Paths that end in dots -/

/-- The steps of a path whose last piece is empty, `.` or `..` end in dots. -/
theorem endsInDots_steps (p : Octets) {n : Octets} (hn : n = [] ∨ n = dot ∨ n = dots) :
    EndsInDots (steps (p ++ slash :: n)) := by
  have hslash : slash ∉ n := by
    rcases hn with rfl | rfl | rfl <;> decide
  have hpieces : (p ++ slash :: n).splitOn slash = p.splitOn slash ++ [n] := by
    rw [List.splitOn_append_cons_self, List.splitOn_eq_singleton hslash]
  rw [EndsInDots, steps, hpieces]
  rcases hn with rfl | rfl | rfl <;> simp [dot, dots, slash]

/-- **No file under dots.** A path whose last piece is empty, `.` or `..` leads to no file. -/
theorem isFile_eq_false_of_dots (t : FileTree) (p : Text) {n : Text}
    (hn : n = [] ∨ n = ['.'] ∨ n = ['.', '.']) : t.isFile (p ++ '/' :: n) = false := by
  have hoctets : Utf8.encode (p ++ '/' :: n) = Utf8.encode p ++ slash :: Utf8.encode n :=
    Utf8.encode_append p ('/' :: n)
  have hdots : Utf8.encode n = [] ∨ Utf8.encode n = dot ∨ Utf8.encode n = dots := by
    rcases hn with rfl | rfl | rfl <;> decide
  rw [isFile, stat, find, hoctets, locate]
  split_ifs with hempty hnul hlong
  · rfl
  · rfl
  · rfl
  · cases hf : t.follow maxLinks [] (steps (Utf8.encode p ++ slash :: Utf8.encode n)) with
    | error e => rfl
    | ok found =>
      obtain ⟨place, i⟩ := found
      exact Item.isFile_eq_false (isDirectory_of_follow t.grounded_nil
        (endsInDots_steps _ hdots) hf)

end Webroot.FileTree
