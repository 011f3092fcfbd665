/-!
# The Gregorian calendar

Dates of the Gregorian calendar, extended to all years, and their day numbers, counted from
1 January 1970. `yearStart` counts days from the start of the year 0; a year begins there or
later days by 365 days for each year between and one for each leap year.
-/

namespace Webroot

/-- A date: a year, a month from 1 to 12 and a day from 1 on. -/
structure Date where
  year : Int
  month : Nat
  day : Nat
  deriving DecidableEq, Repr

namespace Date

/-- Whether a year has 366 days. -/
def isLeap (y : Int) : Bool := y % 4 == 0 && (y % 100 != 0 || y % 400 == 0)

/-- The number of days from the start of the year 0 to the start of the year `y`. -/
def yearStart (y : Int) : Int :=
  365 * y + (y + 3) / 4 - (y + 99) / 100 + (y + 399) / 400

/-- The year that holds the day number `n`, counted from the start of the year 0. -/
def yearOf (n : Int) : Int :=
  let y := n * 400 / 146097
  if n < yearStart y then y - 1 else if yearStart (y + 1) ≤ n then y + 1 else y

theorem yearStart_succ (y : Int) :
    yearStart (y + 1) = yearStart y + if isLeap y then 366 else 365 := by
  simp only [yearStart, isLeap, Bool.and_eq_true, Bool.or_eq_true, beq_iff_eq, bne_iff_ne]
  split <;> omega

/-- The days of a year lie between its start and the next. -/
theorem yearOf_bounds (n : Int) :
    yearStart (yearOf n) ≤ n ∧ n < yearStart (yearOf n + 1) := by
  simp only [yearOf]
  split
  · simp only [Int.sub_add_cancel, yearStart] at *
    omega
  · split
    · simp only [yearStart] at *
      omega
    · simp only [yearStart] at *
      omega

/-- The number of days in a year before the month `m`. -/
def monthStart (leap : Bool) (m : Nat) : Nat :=
  let extra := if leap && 2 < m then 1 else 0
  [0, 0, 31, 59, 90, 120, 151, 181, 212, 243, 273, 304, 334].getD m 365 + extra

/-- The month that holds the day number `n` of a year, counted from 0. -/
def monthOf (leap : Bool) (n : Nat) : Nat :=
  1 + [2, 3, 4, 5, 6, 7, 8, 9, 10, 11, 12].countP fun m => monthStart leap m ≤ n

/-- The number of days in a month. -/
def monthLength (leap : Bool) (m : Nat) : Nat := monthStart leap (m + 1) - monthStart leap m

/-- Whether the month has that day in that year. -/
def isValid (d : Date) : Bool :=
  1 ≤ d.month && d.month ≤ 12 && 1 ≤ d.day && d.day ≤ monthLength (isLeap d.year) d.month

/-- The day number of 1 January 1970, counted from the start of the year 0. -/
def epoch : Int := 719528

/-- The day number of a date. -/
def toDays (d : Date) : Int :=
  yearStart d.year + monthStart (isLeap d.year) d.month + d.day - 1 - epoch

/-- The date with a day number. -/
def ofDays (n : Int) : Date :=
  let y := yearOf (n + epoch)
  let k := (n + epoch - yearStart y).toNat
  let m := monthOf (isLeap y) k
  { year := y, month := m, day := k + 1 - monthStart (isLeap y) m }

/-- The day of the week of a day number, from 0 for Monday to 6 for Sunday. -/
def weekday (n : Int) : Nat := ((n + 3) % 7).toNat

end Date

end Webroot
