import Mathlib.Tactic.SplitIfs
import Webroot.Time.Instant

/-!
# Day numbers and dates

Every day number has one date, that date exists, and its day number is the one it came from
(`toDays_ofDays`). A day is found in two steps: the year by `yearOf_bounds`, and then the month,
which is a matter of the 366 days that a year can have (`monthOf_bounds`).
-/

namespace Webroot.Date

/-! ### Months -/

/-- The number of days in a year. -/
def yearLength (leap : Bool) : Nat := if leap then 366 else 365

/-- A day of a year lies in the month that is found for it. -/
theorem monthOf_bounds {leap : Bool} {k : Nat} (hk : k < yearLength leap) :
    1 ≤ monthOf leap k ∧ monthOf leap k ≤ 12 ∧ monthStart leap (monthOf leap k) ≤ k ∧
      k < monthStart leap (monthOf leap k + 1) := by
  -- a year has at most 366 days, so each of them can be looked at
  have hall : ∀ leap : Bool, ∀ k < yearLength leap,
      1 ≤ monthOf leap k ∧ monthOf leap k ≤ 12 ∧ monthStart leap (monthOf leap k) ≤ k ∧
        k < monthStart leap (monthOf leap k + 1) := by
    decide +kernel
  exact hall leap k hk

/-! ### Years -/

/-- The number of a day in its year, counted from 0. -/
def dayOfYear (n : Int) : Nat := (n + epoch - yearStart (yearOf (n + epoch))).toNat

theorem cast_dayOfYear (n : Int) :
    (dayOfYear n : Int) = n + epoch - yearStart (yearOf (n + epoch)) := by
  obtain ⟨hstart, -⟩ := yearOf_bounds (n + epoch)
  exact Int.toNat_of_nonneg (by omega)

theorem dayOfYear_lt (n : Int) : dayOfYear n < yearLength (isLeap (yearOf (n + epoch))) := by
  obtain ⟨-, hnext⟩ := yearOf_bounds (n + epoch)
  rw [yearStart_succ] at hnext
  have hday := cast_dayOfYear n
  rw [yearLength]
  split_ifs at hnext ⊢ with hleap
  · omega
  · omega

/-! ### Dates -/

/-- The date of a day, by the number of the day in its year. -/
theorem ofDays_eq (n : Int) :
    ofDays n =
      let leap := isLeap (yearOf (n + epoch))
      let m := monthOf leap (dayOfYear n)
      ⟨yearOf (n + epoch), m, dayOfYear n + 1 - monthStart leap m⟩ := rfl

/-- The day number of a date is the one that it came from. -/
@[simp]
theorem toDays_ofDays (n : Int) : toDays (ofDays n) = n := by
  obtain ⟨-, -, hfirst, -⟩ := monthOf_bounds (dayOfYear_lt n)
  have hday := cast_dayOfYear n
  simp only [ofDays_eq, toDays]
  omega

/-- The date of a day number exists. -/
theorem isValid_ofDays (n : Int) : (ofDays n).isValid = true := by
  obtain ⟨hone, htwelve, hfirst, hlast⟩ := monthOf_bounds (dayOfYear_lt n)
  simp only [isValid, Bool.and_eq_true, decide_eq_true_eq]
  simp only [ofDays_eq, monthLength]
  omega

/-- The month of a date is one of the twelve, and its day has two digits at most. -/
theorem ofDays_bounds (n : Int) :
    1 ≤ (ofDays n).month ∧ (ofDays n).month ≤ 12 ∧ (ofDays n).day < 100 := by
  have hvalid := isValid_ofDays n
  have hlength : ∀ leap : Bool, ∀ m ≤ 12, monthLength leap m < 100 := by
    decide +kernel
  simp only [isValid, Bool.and_eq_true, decide_eq_true_eq] at hvalid
  obtain ⟨⟨⟨hone, htwelve⟩, -⟩, hday⟩ := hvalid
  have hmonth := hlength (isLeap (ofDays n).year) _ htwelve
  exact ⟨hone, htwelve, by omega⟩

/-- The days of the years from `a` to `b`. -/
theorem day_bounds_of_year {n a b : Int} (ha : a ≤ (ofDays n).year) (hb : (ofDays n).year ≤ b) :
    yearStart a ≤ n + epoch ∧ n + epoch < yearStart (b + 1) := by
  obtain ⟨hstart, hnext⟩ := yearOf_bounds (n + epoch)
  have hyear : (ofDays n).year = yearOf (n + epoch) := rfl
  rw [hyear] at ha hb
  simp only [yearStart] at *
  omega

end Webroot.Date

namespace Webroot.Instant

/-- The day and the time of day make up the second. -/
theorem seconds_eq (s : Int) :
    s / 86400 * 86400 + (clock s).hour * 3600 + (clock s).minute * 60 + (clock s).second = s := by
  simp only [clock]
  omega

theorem clock_lt (s : Int) :
    (clock s).hour < 24 ∧ (clock s).minute < 60 ∧ (clock s).second < 60 := by
  simp only [clock]
  omega

theorem date_bounds (s : Int) :
    (1 ≤ (date s).month ∧ (date s).month ≤ 12) ∧ (date s).day < 100 := by
  obtain ⟨hone, htwelve, hday⟩ := Date.ofDays_bounds (s / 86400)
  exact ⟨⟨hone, htwelve⟩, hday⟩

end Webroot.Instant
