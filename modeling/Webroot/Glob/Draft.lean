import Webroot.Number.Fnv

/-!
# Drafts of machines

A **draft** is a machine that is laid down state by state. Its states are numbered in the order in
which they are laid down, and each takes 32 bytes besides what it holds.

Some states are **shared**. Such a state is described by a list of numbers, and the draft keeps it
in one of finitely many slots, which the digest of the description names. A state is not laid down
again while the same description is in its slot; a state with another description may take the
slot over.
-/

namespace Webroot.Glob

/-- A state in its slot. -/
structure SharedState where
  slot : Nat
  description : List Nat
  state : Nat
  deriving DecidableEq, Repr

/-- The number of states laid down, the bytes they take, and the states in slots. Of two states in
one slot the first one counts. -/
structure Draft where
  states : Nat := 0
  bytes : Nat := 0
  shared : List SharedState := []
  deriving DecidableEq, Repr

namespace Draft

/-- Lays down a state that holds some bytes. Its number is the number of the states before it. -/
def lay (d : Draft) (bytes : Nat) : Draft :=
  { d with states := d.states + 1, bytes := d.bytes + (32 + bytes) }

/-- Lays down some states that hold nothing. -/
def layBlank (d : Draft) (count : Nat) : Draft :=
  { d with states := d.states + count, bytes := d.bytes + 32 * count }

/-- Empties the slots. -/
def forget (d : Draft) : Draft := { d with shared := [] }

/-- The slot for a description. -/
def slotOf (slots : Nat) (description : List Nat) : Nat := (fnv1a description).toNat % slots

/-- The state that is in a slot under a description. -/
def inSlot? (d : Draft) (slot : Nat) (description : List Nat) : Option Nat :=
  (d.shared.find? fun s => s.slot == slot).bind fun s =>
    if s.description = description then some s.state else none

/-- The state with a description, which is laid down unless it is in its slot. -/
def share (d : Draft) (slots : Nat) (description : List Nat) (bytes : Nat) : Nat × Draft :=
  let slot := slotOf slots description
  match d.inSlot? slot description with
  | some s => (s, d)
  | none => (d.states, { d.lay bytes with shared := ⟨slot, description, d.states⟩ :: d.shared })

end Draft

end Webroot.Glob
