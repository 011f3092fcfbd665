import Webroot.Http.Body

/-!
# Lengths that are added up

The length of a body of several parts is added up in 64-bit numbers, part by part, and no sum on the
way is checked against anything but 64 bits. All the same no sum on the way decides: whether adding
up is broken off, and what it comes to, depends on the sum of all lengths alone, as if that had been
checked once at the end (`Body.length?_multipart`). This is because lengths are not negative, so the
sums on the way are no larger than the last one, and because dropping bits twice is dropping them
once (`Overflow.keep?_bind`).

Main statements: `Body.length?_eq_some_length_iff` and `Body.length?_eq_none_iff`.
-/

namespace Webroot.Http

/-! ### Sums -/

namespace Overflow

variable {o : Overflow} {m n : Nat}

theorem keep?_of_lt (h : n < 0x10000000000000000) (o : Overflow) : o.keep? n = some n := if_pos h

theorem keep?_abort_of_le (h : 0x10000000000000000 ≤ n) : Overflow.abort.keep? n = none :=
  if_neg (Nat.not_lt.mpr h)

theorem keep?_wrap (n : Nat) : Overflow.wrap.keep? n = some (n % 0x10000000000000000) := by
  rcases Nat.lt_or_ge n 0x10000000000000000 with hlt | hle
  · rw [keep?_of_lt hlt, Nat.mod_eq_of_lt hlt]
  · exact if_neg (Nat.not_lt.mpr hle)

/-- A sum of more than 64 bits is never kept as it is. -/
theorem keep?_eq_some_self_iff : o.keep? n = some n ↔ n < 0x10000000000000000 := by
  refine ⟨fun h => ?_, fun h => keep?_of_lt h o⟩
  refine Nat.lt_of_not_le fun hle => ?_
  cases o with
  | abort => cases (keep?_abort_of_le hle).symm.trans h
  | wrap =>
    have hself := Option.some.inj ((keep?_wrap n).symm.trans h)
    omega

/-- Adding up is broken off where sums are checked and the sum has more than 64 bits. -/
theorem keep?_eq_none_iff : o.keep? n = none ↔ o = .abort ∧ 0x10000000000000000 ≤ n := by
  rcases Nat.lt_or_ge n 0x10000000000000000 with hlt | hle
  · simp [keep?_of_lt hlt, hlt]
  · cases o with
    | abort => simp [keep?_abort_of_le hle, hle]
    | wrap => simp [keep?_wrap]

/-- Adding to what was kept of a sum is as good as adding to the sum. -/
theorem keep?_bind (o : Overflow) (m n : Nat) :
    ((o.keep? m).bind fun k => o.add? k n) = o.keep? (m + n) := by
  cases o with
  | abort =>
    rcases Nat.lt_or_ge m 0x10000000000000000 with hm | hm
    · rw [keep?_of_lt hm, Option.bind_some, add?]
    · rw [keep?_abort_of_le hm, keep?_abort_of_le (Nat.le_add_right_of_le hm), Option.bind_none]
  | wrap => simp only [keep?_wrap, Option.bind_some, add?, Nat.mod_add_mod]

theorem bind_keep? (o : Overflow) (m n : Nat) :
    ((o.keep? n).bind fun k => o.add? m k) = o.keep? (m + n) := by
  rw [Nat.add_comm, ← keep?_bind]
  simp only [add?, Nat.add_comm]

end Overflow

/-! ### Bodies -/

open Overflow

theorem BytePart.size?_eq (o : Overflow) (p : BytePart) : p.size? o = o.keep? p.size :=
  keep?_bind o _ _

/-- Adding a part to what was kept of a sum. -/
theorem BytePart.keep?_bind_addTo? (o : Overflow) (m : Nat) (p : BytePart) :
    ((o.keep? m).bind fun n => p.addTo? o n) = o.keep? (m + p.size) := by
  have hstep : ∀ n, addTo? o n p = o.keep? (n + p.size) := fun n => by
    rw [← bind_keep?, ← size?_eq]
    rfl
  simp only [hstep]
  exact keep?_bind o m p.size

namespace Body

variable {o : Overflow} {source : Source} {parts : List BytePart} {closing : Octets}

/-- Parts and a closing line that are added to what was kept of a sum. -/
theorem keep?_bind_foldlM (o : Overflow) (m last : Nat) (parts : List BytePart) :
    ((o.keep? m).bind fun n =>
        (parts.foldlM (BytePart.addTo? o) n).bind fun sum => o.add? sum last) =
      o.keep? (m + parts.foldr (fun p n => p.size + n) last) := by
  -- on the parts, for any sum to start with: the first part goes to the start
  induction parts generalizing m with
  | nil => exact keep?_bind o m last
  | cons p parts ih =>
    rw [List.foldr_cons, ← Nat.add_assoc, ← ih, ← BytePart.keep?_bind_addTo?, Option.bind_assoc]
    simp only [List.foldlM_cons, Option.bind_eq_bind, Option.bind_assoc]

/-- **Several parts** are added up as if only the sum of all lengths were looked at. -/
theorem length?_multipart :
    (multipart source parts closing).length? o =
      o.keep? (multipart source parts closing).length := by
  have hsum := keep?_bind_foldlM o 0 closing.length parts
  rw [keep?_of_lt (by decide), Option.bind_some, Nat.zero_add] at hsum
  exact hsum

/-- A body **fits** when its length is no sum, or one of 64 bits. -/
def Fits : Body → Prop
  | multipart source parts closing =>
    (multipart source parts closing).length < 0x10000000000000000
  | empty | bytes _ | file .. => True

instance : DecidablePred Fits
  | multipart .. => inferInstanceAs (Decidable (_ < _))
  | empty | bytes _ | file .. => inferInstanceAs (Decidable True)

variable {b : Body}

/-- The length that is added up is the number of bytes exactly when the body fits. -/
theorem length?_eq_some_length_iff : b.length? o = some b.length ↔ b.Fits := by
  cases b with
  | multipart source parts closing =>
    rw [length?_multipart]
    exact keep?_eq_some_self_iff
  | _ => exact iff_of_true rfl trivial

/-- Where sums are not checked the length is added up to what is left of it. -/
theorem length?_multipart_of_fits_or_wrap
    (h : (multipart source parts closing).Fits ∨ o = .wrap) :
    (multipart source parts closing).length? o =
      some ((multipart source parts closing).length % 0x10000000000000000) := by
  rw [length?_multipart]
  rcases h with hfits | rfl
  · rw [keep?_of_lt hfits, Nat.mod_eq_of_lt hfits]
  · exact keep?_wrap _

/-- Adding up is broken off exactly where sums are checked and the body does not fit. -/
theorem length?_eq_none_iff : b.length? o = none ↔ o = .abort ∧ ¬b.Fits := by
  cases b with
  | multipart source parts closing =>
    rw [length?_multipart, keep?_eq_none_iff, Fits, Nat.not_lt]
  | _ => exact iff_of_false (fun h => nomatch h) fun h => h.2 trivial

end Body

end Webroot.Http
