import Mathlib.Tactic.SplitIfs
import Webroot.Proofs.Text.Utf8

/-!
# UTF-8 and the order of texts

Texts compare like their octets: the first octet of a character tells how many there are, more
octets mean a greater character, and equally many compare from the highest bits down
(`compare_encodeChar_append`).

Main statement: `compare_encode`.
-/

namespace Webroot.Utf8

/-! ### Lists -/

theorem compare_cons {α : Type} [Ord α] (a b : α) (as bs : List α) :
    compare (a :: as) (b :: bs) = (compare a b).then (compare as bs) := by
  simp only [List.compare_eq_compareLex, List.compareLex_cons_cons]

/-- What two lists begin with together does not count. -/
theorem compare_append_left {α : Type} [Ord α] [Std.ReflOrd α] (start as bs : List α) :
    compare (start ++ as) (start ++ bs) = compare as bs := by
  induction start with
  | nil => rfl
  | cons a start ih =>
    rw [List.cons_append, List.cons_append, compare_cons, ih, Std.ReflOrd.compare_self]
    rfl

/-! ### Characters -/

/-- Octets compare like their numbers. -/
theorem compare_ofNat {m n : Nat} (hm : m < 256) (hn : n < 256) :
    compare (UInt8.ofNat m) (UInt8.ofNat n) = compare m n := by
  rw [← congrArg (compare m) (toNat_ofNat hn), ← congrArg (compare · _) (toNat_ofNat hm)]
  simp only [compare, compareOfLessAndEq, UInt8.lt_iff_toNat_lt, UInt8.toNat_inj]

/-- Characters compare like their numbers. -/
theorem compare_char (c d : Char) : compare c d = compare c.toNat d.toNat := by
  have hlt : c < d ↔ c.toNat < d.toNat := by
    rw [Char.lt_def, UInt32.lt_iff_toNat_lt]
    rfl
  simp only [compare, compareOfLessAndEq, hlt, Char.toNat_inj]

/-- A smaller character has smaller octets, whatever follows. -/
theorem compare_encodeChar_append {c d : Char} (h : c.toNat < d.toNat) (o o' : Octets) :
    compare (encodeChar c ++ o) (encodeChar d ++ o') = .lt := by
  have hd := scalar d
  simp only [encodeChar]
  -- one case for each number of octets of one and of the other
  split_ifs <;>
    simp (disch := omega) only [List.cons_append, List.nil_append, compare_cons, compare_ofNat,
      Ordering.then_eq_lt, Nat.compare_eq_lt, Nat.compare_eq_eq] <;>
    omega

/-- **Texts compare like their octets.** -/
theorem compare_encode (t u : Text) : compare (encode t) (encode u) = compare t u := by
  induction t generalizing u with
  | nil =>
    cases u with
    | nil => rfl
    | cons d u =>
      obtain ⟨b, o, ho⟩ := List.exists_cons_of_ne_nil (encode_ne_nil (List.cons_ne_nil d u))
      rw [ho]
      rfl
  | cons c t ih =>
    cases u with
    | nil =>
      obtain ⟨b, o, ho⟩ := List.exists_cons_of_ne_nil (encode_ne_nil (List.cons_ne_nil c t))
      rw [ho]
      rfl
    | cons d u =>
      rw [encode_cons, encode_cons, compare_cons, compare_char]
      rcases Nat.lt_trichotomy c.toNat d.toNat with hlt | heq | hgt
      · rw [compare_encodeChar_append hlt, Nat.compare_eq_lt.mpr hlt]
        rfl
      · rw [Char.toNat_inj.mp heq, compare_append_left, ih, Nat.compare_eq_eq.mpr rfl]
        rfl
      · rw [Std.OrientedOrd.eq_swap, compare_encodeChar_append hgt, Nat.compare_eq_gt.mpr hgt]
        rfl

end Webroot.Utf8
