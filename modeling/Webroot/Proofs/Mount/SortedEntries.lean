import Webroot.Proofs.Mount.Entries
import Webroot.Proofs.StableSort
import Webroot.Proofs.Text.Utf8Order

/-!
# Listings in order

The entries of a listing are sorted by one of three keys, in one of two directions. What it means
that an entry comes before another is said for each key on its own (`Listing.Before`): names compare
by their octets, a time comes after no time, sizes compare as numbers. The descending order is that
of the swapped comparison and not the ascending one read backwards, and so entries that **tie** keep
the order in which they stood in both directions.

Main statement: `Listing.sort_stable`.
-/

namespace Webroot

/-! ### Times -/

/-- An instant is not after another when it is earlier or the same. -/
theorem Instant.le_iff (i j : Instant) :
    i.le j = true ↔
      (i.seconds < j.seconds ∨ i.seconds = j.seconds ∧ i.nanos < j.nanos) ∨ i = j := by
  obtain ⟨s, n⟩ := i
  obtain ⟨s', n'⟩ := j
  simp only [Instant.le, Bool.or_eq_true, Bool.and_eq_true, decide_eq_true_eq, beq_iff_eq,
    Instant.mk.injEq]
  omega

namespace Listing

open Text

/-! ### Orders -/

/-- An entry **comes before** another under a key: its name has the smaller octets, it has no time
or the earlier one, its size is smaller. -/
def Before : SortKey → Entry → Entry → Prop
  | .name, a, b => compare (Utf8.encode a.name) (Utf8.encode b.name) = .lt
  | .modified, a, b =>
    match a.modified, b.modified with
    | none, some _ => True
    | some i, some j => i.seconds < j.seconds ∨ i.seconds = j.seconds ∧ i.nanos < j.nanos
    | _, none => False
  | .size, a, b => a.size < b.size

/-- An entry comes before another in a listing that is sorted in an order. -/
def Precedes (key : SortKey) : SortOrder → Entry → Entry → Prop
  | .ascending, a, b => Before key a b
  | .descending, a, b => Before key b a

/-- Two entries **tie** when they have the same key. -/
def Ties : SortKey → Entry → Entry → Prop
  | .name, a, b => a.name = b.name
  | .modified, a, b => a.modified = b.modified
  | .size, a, b => a.size = b.size

instance (key : SortKey) (a b : Entry) : Decidable (Ties key a b) := by
  cases key <;> exact inferInstanceAs (Decidable (_ = _))

theorem Ties.symm {key : SortKey} {a b : Entry} (h : Ties key a b) : Ties key b a := by
  cases key <;> exact Eq.symm h

theorem Ties.trans {key : SortKey} {a b c : Entry} (h : Ties key a b) (h' : Ties key b c) :
    Ties key a c := by
  cases key <;> exact Eq.trans h h'

/-- Of two entries one comes before the other, or they tie. -/
theorem le_iff (key : SortKey) (a b : Entry) :
    le key a b = true ↔ Before key a b ∨ Ties key a b := by
  cases key with
  | name =>
    simp only [le, Before, Ties, Utf8.compare_encode, Ordering.isLE_iff_eq_lt_or_eq_eq,
      Std.compare_eq_iff_eq]
  | modified =>
    simp only [le, Before, Ties]
    cases a.modified with
    | none => cases b.modified <;> simp [notAfter]
    | some i =>
      cases b.modified with
      | none => simp [notAfter]
      | some j => simp only [notAfter, Instant.le_iff, Option.some.injEq]
  | size => simp only [le, Before, Ties, decide_eq_true_eq, Int.le_iff_lt_or_eq]

theorem notAfter_trans {x y z : Option Instant} (hxy : notAfter x y = true)
    (hyz : notAfter y z = true) : notAfter x z = true := by
  cases x with
  | none => rfl
  | some i =>
    -- a time is not after no time, and so all three are times
    obtain ⟨j, rfl⟩ : ∃ j, y = some j := by
      cases y with
      | none => cases hxy
      | some j => exact ⟨j, rfl⟩
    obtain ⟨k, rfl⟩ : ∃ k, z = some k := by
      cases z with
      | none => cases hyz
      | some k => exact ⟨k, rfl⟩
    simp only [notAfter, Instant.le, Bool.or_eq_true, Bool.and_eq_true, decide_eq_true_eq,
      beq_iff_eq] at hxy hyz ⊢
    omega

theorem notAfter_total (x y : Option Instant) : (notAfter x y || notAfter y x) = true := by
  cases x with
  | none => rfl
  | some i =>
    cases y with
    | none => rfl
    | some j =>
      simp only [notAfter, Instant.le, Bool.or_eq_true, Bool.and_eq_true, decide_eq_true_eq,
        beq_iff_eq]
      omega

theorem le_trans (key : SortKey) (a b c : Entry) (hab : le key a b = true)
    (hbc : le key b c = true) : le key a c = true := by
  cases key with
  | name => exact Std.TransOrd.isLE_trans hab hbc
  | modified => exact notAfter_trans hab hbc
  | size =>
    simp only [le, decide_eq_true_eq] at hab hbc ⊢
    exact Int.le_trans hab hbc

theorem le_total (key : SortKey) (a b : Entry) : (le key a b || le key b a) = true := by
  cases key with
  | name =>
    simp only [le]
    rw [Std.OrientedOrd.eq_swap (a := b.name)]
    cases compare a.name b.name <;> rfl
  | modified => exact notAfter_total a.modified b.modified
  | size =>
    simp only [le, Bool.or_eq_true, decide_eq_true_eq]
    exact Int.le_total a.size b.size

/-! ### Sorted listings -/

/-- Whether an entry may stand before another in an order. -/
def leIn (key : SortKey) (order : SortOrder) (a b : Entry) : Bool :=
  match order with
  | .ascending => le key a b
  | .descending => le key b a

theorem sort_eq (es : List Entry) (key : SortKey) (order : SortOrder) :
    sort es key order = es.mergeSort (leIn key order) := by
  cases order <;> rfl

theorem leIn_iff (key : SortKey) (order : SortOrder) (a b : Entry) :
    leIn key order a b = true ↔ Precedes key order a b ∨ Ties key a b := by
  cases order with
  | ascending => exact le_iff key a b
  | descending => exact (le_iff key b a).trans (or_congr_right ⟨Ties.symm, Ties.symm⟩)

theorem leIn_trans (key : SortKey) (order : SortOrder) (a b c : Entry)
    (hab : leIn key order a b = true) (hbc : leIn key order b c = true) :
    leIn key order a c = true := by
  cases order with
  | ascending => exact le_trans key a b c hab hbc
  | descending => exact le_trans key c b a hbc hab

theorem leIn_total (key : SortKey) (order : SortOrder) (a b : Entry) :
    (leIn key order a b || leIn key order b a) = true := by
  cases order with
  | ascending => exact le_total key a b
  | descending => exact le_total key b a

/-- **Listings in order.** Sorting entries by a key in an order rearranges them. Of any two of them
the one that stands first precedes the other in that order, or they tie; and the entries that tie
with some entry stand in the order in which they stood before. -/
theorem sort_stable (es : List Entry) (key : SortKey) (order : SortOrder) :
    (sort es key order).Perm es ∧
    ((sort es key order).Pairwise fun a b => Precedes key order a b ∨ Ties key a b) ∧
    ∀ e, (sort es key order).filter (fun a => Ties key a e) = es.filter fun a => Ties key a e := by
  refine ⟨sort_perm es key order, ?_, fun e => ?_⟩
  · rw [sort_eq]
    have hsorted := List.pairwise_mergeSort (leIn_trans key order) (leIn_total key order) es
    exact hsorted.imp fun h => (leIn_iff key order _ _).mp h
  · rw [sort_eq]
    refine filter_mergeSort (leIn_trans key order) (leIn_total key order) (fun a b ha hb => ?_) es
    have hties := (of_decide_eq_true ha : Ties key a e).trans (of_decide_eq_true hb).symm
    exact (leIn_iff key order a b).mpr (.inr hties)

end Listing

end Webroot
