import Mathlib.Tactic.SplitIfs
import Webroot.Mount.Resolve
import Webroot.Proofs.Files.Names

/-!
# The walk through segments

Resolution walks the segments of a path as long as they lead to directories. Here the walk is
cut in two: the segments it **passes**, all of them allowed and leading from directory to
directory, and the ones before the first of which it **stops**.

* `exists_passes`: every list of segments is cut so, in every tree.
* `descend_of_passes` and `descend_of_stops`: what the walk does to an exchange, callbacks
  included, is what passing does and then nothing more.
* `resolve_eq_finish`: resolution is the walk and then the choice among what is left.

So a statement about resolution is one about the segments passed and the choice at the end.
-/

namespace Webroot

/-- Options are **silent** when they have no callback. -/
structure MountOptions.Silent (o : MountOptions) : Prop where
  directory : o.directoryCallback = none
  file : o.fileCallback = none
  handler : o.handlerCallback = none

namespace Resolve

open Http

variable {t : FileTree} {o : MountOptions} {hidden : HiddenNames}

/-! ### Segments -/

theorem segments_eq_map_names (path : Text) :
    segments path = (Path.names path).map ('/' :: ·) := rfl

/-- The segments of the root and of names make up the path below the root. -/
theorem flatten_names (ns : List Text) : ([] :: ns.map ('/' :: ·)).flatten = Path.below ns := by
  rw [List.flatten_cons, List.nil_append, ← Path.below_eq_flatten]

/-- The walk must not go through a name. -/
theorem refuses_slash (hidden : HiddenNames) (n : Text) :
    refuses hidden ('/' :: n) =
      (n == ['.'] || n == ['.', '.'] || n.contains '\x00' || hidden.hides n) := rfl

/-- A name that the walk may go through is no dots, holds no NUL and is not hidden. -/
theorem refuses_slash_eq_false {n : Text} :
    refuses hidden ('/' :: n) = false ↔
      n ≠ ['.'] ∧ n ≠ ['.', '.'] ∧ '\x00' ∉ n ∧ hidden.hides n = false := by
  simp [refuses_slash, and_assoc]

/-! ### Passing and stopping -/

/-- The walk **passes** segments from one directory to another when it may go through each of
them, none is a lone slash, and each leads to a directory. -/
inductive Passes (t : FileTree) (hidden : HiddenNames) : Text → List Text → Text → Prop
  | nil (here : Text) : Passes t hidden here [] here
  | cons {here base there : Text} {pre : List Text} : refuses hidden base = false →
      base ≠ ['/'] → t.isDirectory (here ++ base) = true →
      Passes t hidden (here ++ base) pre there → Passes t hidden here (base :: pre) there

/-- The walk **stops** before segments when none is left, or when the first is refused, is a lone
slash, or leads to no directory. -/
def Stops (t : FileTree) (hidden : HiddenNames) (here : Text) : List Text → Prop
  | [] => True
  | base :: _ =>
    refuses hidden base = true ∨ base = ['/'] ∨ t.isDirectory (here ++ base) = false

/-- Every walk passes some segments and stops before the rest. -/
theorem exists_passes (t : FileTree) (hidden : HiddenNames) (segs : List Text) (here : Text) :
    ∃ pre left there, segs = pre ++ left ∧ Passes t hidden here pre there ∧
      Stops t hidden there left := by
  induction segs generalizing here with
  | nil => exact ⟨[], [], here, rfl, .nil here, trivial⟩
  | cons base rest ih =>
    by_cases hstop : Stops t hidden here (base :: rest)
    · exact ⟨[], base :: rest, here, rfl, .nil here, hstop⟩
    · simp only [Stops, not_or, Bool.not_eq_true, Bool.not_eq_false] at hstop
      obtain ⟨hallowed, hslash, hdir⟩ := hstop
      obtain ⟨pre, left, there, rfl, hpass, hstop'⟩ := ih (here ++ base)
      exact ⟨base :: pre, left, there, rfl, .cons hallowed hslash hdir hpass, hstop'⟩

namespace Passes

variable {here there : Text} {pre : List Text}

/-- The path reached is the path at the start and the segments passed. -/
theorem eq_append (h : Passes t hidden here pre there) : there = here ++ pre.flatten := by
  induction h with
  | nil => simp
  | cons _ _ _ _ ih => rw [ih, List.flatten_cons, List.append_assoc]

theorem allowed (h : Passes t hidden here pre there) : ∀ s ∈ pre, refuses hidden s = false := by
  induction h with
  | nil => simp
  | cons hallowed _ _ _ ih => simpa [hallowed] using ih

theorem ne_slash (h : Passes t hidden here pre there) : ∀ s ∈ pre, s ≠ ['/'] := by
  induction h with
  | nil => simp
  | cons _ hslash _ _ ih => simpa [hslash] using ih

theorem append {mid : Text} {pre' : List Text} (h : Passes t hidden here pre mid)
    (h' : Passes t hidden mid pre' there) : Passes t hidden here (pre ++ pre') there := by
  induction h with
  | nil => exact h'
  | cons hallowed hslash hdir _ ih => exact .cons hallowed hslash hdir (ih h')

end Passes

/-! ### What the walk does to an exchange -/

/-- The exchange after segments were passed: each was walked and the callback called. -/
def walked (o : MountOptions) : (pre left : List Text) → (here : Text) → Exchange → Exchange
  | [], _, _, x => x
  | base :: pre, left, here, x =>
    walked o pre left (here ++ base)
      ((shift x base (pre ++ left) (here ++ base)).call .directory o.directoryCallback)

theorem descend_of_passes {here there : Text} {pre : List Text}
    (h : Passes t o.hidden here pre there) (left : List Text) (x : Exchange) :
    descend t o (pre ++ left) here x = descend t o left there (walked o pre left here x) := by
  induction h generalizing x with
  | nil => rfl
  | cons hallowed hslash hdir _ ih =>
    rw [List.cons_append, descend, if_neg (by simp [hallowed]), if_neg (by simp [hslash, hdir]), ih]
    rfl

/-- A walk that stops at once leaves the exchange as it is. -/
theorem descend_of_stops {here : Text} {left : List Text} (h : Stops t o.hidden here left)
    (x : Exchange) :
    descend t o left here x =
      ⟨if left.head?.any (refuses o.hidden) then .error (.missing x.request.path)
        else .ok (here, left), x⟩ := by
  cases left with
  | nil => rfl
  | cons base rest =>
    rw [descend]
    by_cases hrefused : refuses o.hidden base = true
    · simp [hrefused]
    · have hhalt : base = ['/'] ∨ t.isDirectory (here ++ base) = false := by
        simpa [Stops, hrefused] using h
      simp [hrefused, hhalt]

/-- Two segments walked are one segment walked. -/
theorem shift_shift (x : Exchange) (a b : Text) (r₁ r₂ : List Text) (p₁ p₂ : Text) :
    shift (shift x a r₁ p₁) b r₂ p₂ = shift x (a ++ b) r₂ p₂ := by
  simp [shift, Response.setFilename]

/-- Without a callback, the segments passed are walked as one. -/
theorem walked_eq_shift (ho : o.Silent) {pre : List Text} (hpre : pre ≠ []) (left : List Text)
    (here : Text) (x : Exchange) :
    walked o pre left here x = shift x pre.flatten left (here ++ pre.flatten) := by
  induction pre generalizing here x with
  | nil => exact absurd rfl hpre
  | cons base pre ih =>
    rw [walked, ho.directory, Exchange.call]
    -- nothing is walked after the last segment, not even an empty step
    by_cases hnil : pre = []
    · simp [hnil, walked]
    · rw [ih hnil, shift_shift, List.flatten_cons, List.append_assoc]

/-! ### Resolution -/

/-- What is made of the segments left: a refused one is missing, others are chosen among. -/
def finish (t : FileTree) (o : MountOptions) (here : Text) (left : List Text) (x : Exchange) :
    Answer Resolved :=
  if left.head?.any (refuses o.hidden) then ⟨.error (.missing x.request.path), x⟩
  else choose t o here left x

/-- The exchange with which the walk from a root starts. -/
def entered (root : Text) (x : Exchange) : Exchange :=
  { x with response := x.response.setFilename root }

/-- Resolution walks and then chooses. -/
theorem resolve_eq_descend (t : FileTree) (o : MountOptions) (root : Text) (x : Exchange) :
    resolve t o root x =
      let walked := descend t o ([] :: segments x.request.pathInfo) root (entered root x)
      match walked.result with
      | .error f => ⟨.error f, walked.exchange⟩
      | .ok (here, left) => choose t o here left walked.exchange := rfl

/-- The exchange when the walk stops: the segments passed have moved from the path info to the
script name and to the local path, and all else is as it was. -/
theorem walked_entered (ho : o.Silent) (pre left : List Text) (root : Text) (x : Exchange) :
    walked o pre left root (entered root x) =
      { request := { x.request with
          scriptName := x.request.scriptName ++ pre.flatten
          pathInfo := if pre = [] then x.request.pathInfo else left.flatten }
        response := x.response.setFilename (root ++ pre.flatten)
        journal := x.journal } := by
  by_cases hpre : pre = []
  · simp [hpre, walked, entered]
  · simp [walked_eq_shift ho hpre, hpre, shift, entered, Response.setFilename]

/-- **Resolution** is the walk and then the choice among what is left. -/
theorem resolve_eq_finish {root here : Text} {x : Exchange} {pre left : List Text}
    (hsegs : [] :: segments x.request.pathInfo = pre ++ left)
    (hpass : Passes t o.hidden root pre here) (hstop : Stops t o.hidden here left) :
    resolve t o root x = finish t o here left (walked o pre left root (entered root x)) := by
  have hdescend := descend_of_passes hpass left (entered root x)
  rw [descend_of_stops hstop, ← hsegs, entered] at hdescend
  simp only [resolve, hdescend, finish, entered]
  split_ifs <;> rfl

end Resolve

end Webroot
