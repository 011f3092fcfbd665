import Webroot.Proofs.Http.RangeField

/-!
# Ranges at the ends of the numbers

The ends of a range may be any 64-bit numbers, and a size any number. **Checked** arithmetic gives
nothing where a result is beyond the 64-bit numbers; computed with it, the span of a range is the
same (`spanChecked?_eq`). What keeps the sums small is that only a negative end is added to a size.

Main statement: `span?_checked`, with what the span is in integers.
-/

namespace Webroot.Http.RangeSpec

/-! ### Checked arithmetic -/

/-- The sum of two numbers, unless it is beyond the 64-bit numbers. -/
def sum? (x y : Int64) : Option Int64 :=
  if BitVec.saddOverflow x.toBitVec y.toBitVec then none else some (x + y)

/-- The difference of two numbers, unless it is beyond the 64-bit numbers. -/
def difference? (x y : Int64) : Option Int64 :=
  if BitVec.ssubOverflow x.toBitVec y.toBitVec then none else some (x - y)

/-- The position that one end of a range denotes, with a checked sum. -/
def resolveChecked? (size x : Int64) : Option Int64 := if x < 0 then sum? size x else some x

/-- The part of a file that a range denotes if any, with checked sums. The outer option is that of
the sums. -/
def spanChecked? (spec : RangeSpec) (size : Nat) : Option (Option Span) :=
  if size < 0x8000000000000000 then do
    let n := Int64.ofNat size
    let first ← resolveChecked? n spec.first
    if first < 0 ∨ n ≤ first then some none
    else
      let asked ← resolveChecked? n spec.last
      let bound ← difference? n 1
      let last := if asked ≤ bound then asked else bound
      if last < first then some none
      else some (some ⟨first.toInt.toNat, last.toInt.toNat⟩)
  else some none

theorem sum?_eq {x y : Int64} (hlow : -0x8000000000000000 ≤ x.toInt + y.toInt)
    (hhigh : x.toInt + y.toInt < 0x8000000000000000) : sum? x y = some (x + y) := by
  refine if_neg ?_
  simp only [BitVec.saddOverflow, Int64.toInt_toBitVec, Bool.or_eq_true, decide_eq_true_eq]
  omega

theorem difference?_eq {x y : Int64} (hlow : -0x8000000000000000 ≤ x.toInt - y.toInt)
    (hhigh : x.toInt - y.toInt < 0x8000000000000000) : difference? x y = some (x - y) := by
  refine if_neg ?_
  simp only [BitVec.ssubOverflow, Int64.toInt_toBitVec, Bool.or_eq_true, decide_eq_true_eq]
  omega

/-- The sum of a size and a negative number lies between the two. -/
theorem resolveChecked?_eq {n : Int64} (hn : 0 ≤ n.toInt) (x : Int64) :
    resolveChecked? n x = some (resolve n x) := by
  rw [resolveChecked?, resolve]
  split_ifs with hx
  · have hneg : x.toInt < 0 := by rwa [Int64.lt_iff_toInt_lt, Int64.toInt_zero] at hx
    have hlt := n.toInt_lt
    have hle := x.le_toInt
    exact sum?_eq (by omega) (by omega)
  · rfl

/-- No sum is beyond the 64-bit numbers. -/
theorem spanChecked?_eq (spec : RangeSpec) (size : Nat) :
    spec.spanChecked? size = some (spec.span? size) := by
  rw [spanChecked?, span?]
  split_ifs with hsize
  · have hn : (Int64.ofNat size).toInt = size := Int64.toInt_ofNat_of_lt hsize
    have hresolve := resolveChecked?_eq (n := Int64.ofNat size) (by omega)
    have hbound : difference? (Int64.ofNat size) 1 = some (Int64.ofNat size - 1) := by
      refine difference?_eq ?_ ?_ <;> rw [hn, Int64.toInt_one] <;> omega
    simp only [hresolve, hbound, Option.bind_eq_bind, Option.bind_some]
    split_ifs <;> rfl
  · rfl

/-! ### The span in integers -/

section Span

variable {spec : RangeSpec} {size : Nat} {span : Span}

/-- A range denotes a span exactly when it begins in the file and does not end before. -/
theorem exists_span?_iff :
    (∃ span, spec.span? size = some span) ↔
      size < 0x8000000000000000 ∧ 0 ≤ position size spec.first.toInt ∧
        position size spec.first.toInt < size ∧
        position size spec.first.toInt ≤ position size spec.last.toInt := by
  rcases Nat.lt_or_ge size 0x8000000000000000 with hsize | hlarge
  · simp only [span?_eq hsize]
    split_ifs with hout
    · refine iff_of_false (by simp) ?_
      omega
    · refine iff_of_true ⟨_, rfl⟩ ?_
      omega
  · rw [span?, if_neg (by omega)]
    refine iff_of_false (by simp) ?_
    omega

/-- The span goes from the first end of the range to the other, or to the last byte of the file if
that comes first. -/
theorem toInt_of_span? (h : spec.span? size = some span) :
    (span.first : Int) = position size spec.first.toInt ∧
      (span.last : Int) = min (position size spec.last.toInt) (size - 1) := by
  obtain ⟨hsize, hfirst, hlt, hle⟩ := exists_span?_iff.mp ⟨span, h⟩
  simp only [span?_eq hsize] at h
  split_ifs at h with hout
  obtain rfl := Option.some.inj h
  constructor
  · exact Int.toNat_of_nonneg hfirst
  · exact Int.toNat_of_nonneg (by omega)

end Span

/-- **Ranges in 64-bit numbers.** For all ends of a range and all sizes, no sum is beyond the 64-bit
numbers. A range denotes a span exactly when the size is below 2 ^ 63, its first end is a position
in the file and its last end is not before that. The span is the one between these ends in integers,
cut off at the end of the file, and so it lies in the file. -/
theorem span?_checked (spec : RangeSpec) (size : Nat) :
    let first := position size spec.first.toInt
    let last := position size spec.last.toInt
    spec.spanChecked? size = some (spec.span? size) ∧
      ((∃ span, spec.span? size = some span) ↔
        size < 0x8000000000000000 ∧ 0 ≤ first ∧ first < size ∧ first ≤ last) ∧
      ∀ span, spec.span? size = some span →
        (span.first : Int) = first ∧ (span.last : Int) = min last (size - 1) ∧
          span.first ≤ span.last ∧ span.last < size ∧ span.length ≤ size := by
  intro first last
  refine ⟨spanChecked?_eq spec size, exists_span?_iff, fun span h => ?_⟩
  obtain ⟨hfirst, hlast⟩ := toInt_of_span? h
  obtain ⟨hle, hlt⟩ := span?_bounds h
  refine ⟨hfirst, hlast, hle, hlt, ?_⟩
  rw [Span.length]
  omega

end Webroot.Http.RangeSpec
