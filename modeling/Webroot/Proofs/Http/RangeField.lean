import Mathlib.Tactic.SplitIfs
import Webroot.Http.ByteRange
import Webroot.Proofs.Text.Basic

/-!
# Range fields with one range

Positions are read from ASCII digits alone (`RangeSpec.position?_eq_some_iff`). A range field that
names one range by decimal numerals is read as that range (`RangeSpec.parse?_closed`,
`RangeSpec.parse?_open` and `RangeSpec.parse?_suffix`), with leading zeros or without. For a file
of less than 2 ^ 63 bytes the ends of a range are computed in 64-bit numbers as in integers
(`RangeSpec.span?_eq`), so no sum wraps.
-/

namespace Webroot

namespace Http.RangeSpec

open Text

/-! ### Reading one range -/

/-- A position is read from ASCII digits alone, if their value is below 2 ^ 63. -/
theorem position?_eq_some_iff {t : Text} {x : Int64} :
    position? t = some x ↔
      t ≠ [] ∧ t.all Char.isDigit = true ∧ Nat.ofDigitChars 10 t 0 < 0x8000000000000000 ∧
        Int64.ofNat (Nat.ofDigitChars 10 t 0) = x := by
  have hdigits : (!t.isEmpty && t.all Char.isDigit) = true ↔
      t ≠ [] ∧ t.all Char.isDigit = true := by
    simp
  rw [position?, readDecimal?]
  split_ifs with h
  · obtain ⟨hne, hall⟩ := hdigits.mp h
    rw [Option.bind_some, and_iff_right hne, and_iff_right hall, Option.ite_none_right_eq_some,
      Option.some.injEq]
  · rw [Option.bind_none]
    exact iff_of_false (by simp) fun hpos => h (hdigits.mpr ⟨hpos.1, hpos.2.1⟩)

theorem position?_numeral {n : Nat} (hn : n < 0x8000000000000000) (zeros : Nat) :
    position? (numeral zeros n) = some (Int64.ofNat n) := by
  rw [position?, readDecimal?_numeral, Option.bind_some, if_pos hn]

section Position

variable {a b : Text} {x y : Int64} (ha : position? a = some x) (hb : position? b = some y)

include ha

theorem exists_cons_of_position? : ∃ c t, a = c :: t :=
  List.exists_cons_of_ne_nil (position?_eq_some_iff.mp ha).1

theorem isDigit_of_position? {c : Char} (hc : c ∈ a) : c.isDigit = true :=
  List.all_eq_true.mp (position?_eq_some_iff.mp ha).2.1 c hc

theorem dash_not_mem_of_position? : '-' ∉ a :=
  fun h => absurd (isDigit_of_position? ha h) (by decide)

theorem ofText?_open_of : ofText? (a ++ ['-']) = some ⟨x, -1⟩ := by
  have hcut := cut_append_cons (dash_not_mem_of_position? ha) []
  obtain ⟨c, t, rfl⟩ := exists_cons_of_position? ha
  rw [ofText?, hcut]
  simp only [ha]
  rfl

theorem ofText?_suffix_of : ofText? ('-' :: a) = some ⟨-x, -1⟩ := by
  have hcut := cut_append_cons (List.not_mem_nil (a := '-')) a
  rw [List.nil_append] at hcut
  rw [ofText?, hcut]
  simp only [ha]
  rfl

include hb

theorem ofText?_closed_of : ofText? (a ++ '-' :: b) = some ⟨x, y⟩ := by
  have hcut := cut_append_cons (dash_not_mem_of_position? ha) b
  obtain ⟨c, t, rfl⟩ := exists_cons_of_position? ha
  obtain ⟨d, u, rfl⟩ := exists_cons_of_position? hb
  rw [ofText?, hcut]
  simp only [ha, hb]
  rfl

end Position

theorem ofText?_closed {a b : Nat} (ha : a < 0x8000000000000000) (hb : b < 0x8000000000000000)
    (z w : Nat) :
    ofText? (numeral z a ++ '-' :: numeral w b) = some ⟨Int64.ofNat a, Int64.ofNat b⟩ :=
  ofText?_closed_of (position?_numeral ha z) (position?_numeral hb w)

theorem ofText?_open {a : Nat} (ha : a < 0x8000000000000000) (z : Nat) :
    ofText? (numeral z a ++ ['-']) = some ⟨Int64.ofNat a, -1⟩ :=
  ofText?_open_of (position?_numeral ha z)

theorem ofText?_suffix {n : Nat} (hn : n < 0x8000000000000000) (z : Nat) :
    ofText? ('-' :: numeral z n) = some ⟨-Int64.ofNat n, -1⟩ :=
  ofText?_suffix_of (position?_numeral hn z)

/-- A range field without commas and white space holds one range. -/
theorem parse?_single {t : Text} (hne : t ≠ []) (hblank : ∀ c ∈ t, isBlank c = false)
    (hcomma : ',' ∉ t) : parse? ("bytes=" ++ t) = (ofText? t).map ([·]) := by
  have hunit : ("bytes=" : Text).any isBlank = false := by decide
  have hvalue : ∀ c ∈ "bytes=" ++ t, isBlank c = false := by
    intro c hc
    rcases List.mem_append.mp hc with hc | hc
    · exact isBlank_of_mem_of_any hunit c hc
    · exact hblank c hc
  have hnewline : '\n' ∉ t := by
    intro h
    exact absurd (hblank _ h) (by decide)
  have hpieces : pieces t = [t] := by
    rw [pieces, List.splitOn_eq_singleton hcomma]
    simp [trimStart_eq_self hblank, hne]
  have hmapM : [t].mapM ofText? = (ofText? t).map ([·]) := by
    cases h : ofText? t <;> simp [h]
  rw [parse?, trim_eq_self hvalue, after?_append]
  simp only [List.contains_eq_mem, hnewline, decide_false, Bool.false_eq_true, if_false,
    trim_eq_self hblank, hpieces, hmapM]

/-- Numerals and dashes hold no white space and no comma. -/
theorem plain_of_digit_or_dash {t : Text} (h : ∀ c ∈ t, c.isDigit = true ∨ c = '-') :
    (∀ c ∈ t, isBlank c = false) ∧ ',' ∉ t := by
  constructor
  · intro c hc
    rcases h c hc with hdigit | rfl
    · exact isBlank_of_isDigit hdigit
    · decide
  · intro hc
    rcases h ',' hc with hdigit | heq
    · revert hdigit
      decide
    · revert heq
      decide

/-- A range field with two numerals. -/
theorem parse?_closed {a b : Nat} (ha : a < 0x8000000000000000) (hb : b < 0x8000000000000000)
    (z w : Nat) :
    parse? ("bytes=" ++ (numeral z a ++ '-' :: numeral w b)) =
      some [⟨Int64.ofNat a, Int64.ofNat b⟩] := by
  have hchars : ∀ c ∈ numeral z a ++ '-' :: numeral w b, c.isDigit = true ∨ c = '-' := by
    intro c hc
    rcases List.mem_append.mp hc with hc | hc
    · exact .inl (isDigit_of_mem_numeral hc)
    · rcases List.mem_cons.mp hc with rfl | hc
      · exact .inr rfl
      · exact .inl (isDigit_of_mem_numeral hc)
  obtain ⟨hblank, hcomma⟩ := plain_of_digit_or_dash hchars
  rw [parse?_single (by simp) hblank hcomma, ofText?_closed ha hb]
  rfl

/-- A range field with one numeral. -/
theorem parse?_open {a : Nat} (ha : a < 0x8000000000000000) (z : Nat) :
    parse? ("bytes=" ++ (numeral z a ++ ['-'])) = some [⟨Int64.ofNat a, -1⟩] := by
  have hchars : ∀ c ∈ numeral z a ++ ['-'], c.isDigit = true ∨ c = '-' := by
    intro c hc
    rcases List.mem_append.mp hc with hc | hc
    · exact .inl (isDigit_of_mem_numeral hc)
    · exact .inr (List.mem_singleton.mp hc)
  obtain ⟨hblank, hcomma⟩ := plain_of_digit_or_dash hchars
  rw [parse?_single (by simp) hblank hcomma, ofText?_open ha]
  rfl

/-- A range field with a dash and then a numeral. -/
theorem parse?_suffix {n : Nat} (hn : n < 0x8000000000000000) (z : Nat) :
    parse? ("bytes=" ++ '-' :: numeral z n) = some [⟨-Int64.ofNat n, -1⟩] := by
  have hchars : ∀ c ∈ '-' :: numeral z n, c.isDigit = true ∨ c = '-' := by
    intro c hc
    rcases List.mem_cons.mp hc with rfl | hc
    · exact .inr rfl
    · exact .inl (isDigit_of_mem_numeral hc)
  obtain ⟨hblank, hcomma⟩ := plain_of_digit_or_dash hchars
  rw [parse?_single (by simp) hblank hcomma, ofText?_suffix hn]
  rfl

/-! ### The span of a range -/

/-- The position that one end of a range denotes in a file of `size` bytes, as an integer. -/
def position (size x : Int) : Int := if x < 0 then size + x else x

/-- No end of a range wraps. -/
theorem toInt_resolve {n : Int64} (hn : 0 ≤ n.toInt) (x : Int64) :
    (resolve n x).toInt = position n.toInt x.toInt := by
  have hzero : x < 0 ↔ x.toInt < 0 := by rw [Int64.lt_iff_toInt_lt, Int64.toInt_zero]
  rw [resolve, position]
  split_ifs with hx hx' hx'
  · -- the sum of a size and a negative number lies between the two
    have hlt := n.toInt_lt
    have hle := x.le_toInt
    rw [Int64.toInt_add, Int.bmod_eq_of_le (by omega) (by omega)]
  · exact absurd (hzero.mp hx) hx'
  · exact absurd (hzero.mpr hx') hx
  · rfl

/-- **The span of a range**, computed in integers. -/
theorem span?_eq {size : Nat} (hsize : size < 0x8000000000000000) (spec : RangeSpec) :
    spec.span? size =
      let first := position size spec.first.toInt
      let last := min (position size spec.last.toInt) (size - 1)
      if first < 0 ∨ size ≤ first ∨ last < first then none
      else some ⟨first.toNat, last.toNat⟩ := by
  have hn : (Int64.ofNat size).toInt = size := Int64.toInt_ofNat_of_lt hsize
  have hnonneg : 0 ≤ (Int64.ofNat size).toInt := by omega
  have hfirst := toInt_resolve hnonneg spec.first
  have hasked := toInt_resolve hnonneg spec.last
  have hend : (Int64.ofNat size - 1).toInt = (size : Int) - 1 := by
    rw [Int64.toInt_sub, hn, Int64.toInt_one, Int.bmod_eq_of_le (by omega) (by omega)]
  rw [hn] at hfirst hasked
  rw [span?, if_pos hsize]
  simp only [Int64.lt_iff_toInt_lt, Int64.le_iff_toInt_le, Int64.toInt_zero, hn, hfirst, hend,
    apply_ite Int64.toInt, hasked, ← Int.min_def]
  split_ifs with h₁ h₂ h₃ h₄ h₅
  · rfl
  · exact absurd (h₁.imp_right .inl) h₂
  · rfl
  · exact absurd (.inr (.inr h₃)) h₄
  · rcases h₅ with h | h | h
    · exact absurd (.inl h) h₁
    · exact absurd (.inr h) h₁
    · exact absurd h h₃
  · rfl

/-- The span of a range lies in the file. -/
theorem span?_bounds {spec : RangeSpec} {size : Nat} {span : Span}
    (h : spec.span? size = some span) : span.first ≤ span.last ∧ span.last < size := by
  rcases Nat.lt_or_ge size 0x8000000000000000 with hsize | hlarge
  · simp only [span?_eq hsize] at h
    split_ifs at h with hout
    obtain rfl := Option.some.inj h
    simp only [not_or, Int.not_lt, Int.not_le] at hout
    obtain ⟨hfirst, hlt, hle⟩ := hout
    exact ⟨Int.toNat_le_toNat hle, by simp only; omega⟩
  · rw [span?, if_neg (by omega)] at h
    cases h

theorem position_ofNat (size : Nat) {n : Nat} (hn : n < 0x8000000000000000) :
    position size (Int64.ofNat n).toInt = n := by
  rw [Int64.toInt_ofNat_of_lt hn, position, if_neg (by omega)]

/-- A number that counts from the end of the file. Zero has no sign, and is the first position. -/
theorem position_neg (size : Nat) {n : Nat} (hn : n < 0x8000000000000000) :
    position size (-Int64.ofNat n).toInt = if n = 0 then 0 else (size : Int) - n := by
  have hneg : (-Int64.ofNat n).toInt = -(n : Int) := by
    rw [Int64.toInt_neg, Int64.toInt_ofNat_of_lt hn, Int.bmod_eq_of_le (by omega) (by omega)]
  rw [hneg, position]
  split_ifs <;> omega

theorem position_last (size : Nat) : position size (-1 : Int64).toInt = size - 1 := by
  rw [position, if_pos (by decide)]
  rfl

/-- A range between two positions ends at the last byte of the file at the latest. -/
theorem span?_closed {a b size : Nat} (hsize : size < 0x8000000000000000) (ha : a < size)
    (hab : a ≤ b) (hb : b < 0x8000000000000000) :
    span? ⟨Int64.ofNat a, Int64.ofNat b⟩ size = some ⟨a, min b (size - 1)⟩ := by
  have hfirst := position_ofNat size (n := a) (by omega)
  have hlast := position_ofNat size hb
  simp only [span?_eq hsize, hfirst, hlast]
  rw [if_neg (by omega), Int.toNat_natCast]
  have hmin : (min (b : Int) (size - 1)).toNat = min b (size - 1) := by omega
  rw [hmin]

/-- A range without an end ends at the last byte of the file. -/
theorem span?_open {a size : Nat} (hsize : size < 0x8000000000000000) (ha : a < size) :
    span? ⟨Int64.ofNat a, -1⟩ size = some ⟨a, size - 1⟩ := by
  have hfirst := position_ofNat size (n := a) (by omega)
  simp only [span?_eq hsize, hfirst, position_last]
  rw [if_neg (by omega), Int.toNat_natCast]
  have hmin : (min ((size : Int) - 1) (size - 1)).toNat = size - 1 := by omega
  rw [hmin]

/-- A range of the last bytes of a file ends at its last byte. -/
theorem span?_suffix {n size : Nat} (hsize : size < 0x8000000000000000) (hpos : 0 < n)
    (hn : n ≤ size) : span? ⟨-Int64.ofNat n, -1⟩ size = some ⟨size - n, size - 1⟩ := by
  have hfirst := position_neg size (n := n) (by omega)
  rw [if_neg (by omega)] at hfirst
  simp only [span?_eq hsize, hfirst, position_last]
  rw [if_neg (by omega)]
  have hsub : ((size : Int) - n).toNat = size - n := by omega
  have hmin : (min ((size : Int) - 1) (size - 1)).toNat = size - 1 := by omega
  rw [hsub, hmin]

/-- No range begins before a file, and none lies in an empty one. -/
theorem span?_suffix_eq_none {n size : Nat} (hsize : size < 0x8000000000000000)
    (hn : n < 0x8000000000000000) (hout : size < n ∨ size = 0) :
    span? ⟨-Int64.ofNat n, -1⟩ size = none := by
  simp only [span?_eq hsize, position_neg size hn]
  rw [if_pos]
  split_ifs <;> omega

end Http.RangeSpec

end Webroot
