import Mathlib.Data.List.Basic
import Webroot.Proofs.Time.HttpDate

/-!
# The three forms of dates

Besides the form that is written here, header fields may hold dates of two older forms: one with the
day of the week in full and a two-digit year between hyphens, and one without a zone that ends in
the year. All three are read back as the second that they were written from. The forms are tried in
turn, so it matters that no form is taken for an earlier one: behind the first three letters of the
day there is a comma in the first form, another letter in the second, and a blank in the third.

Two digits of a year are read as a year from 1970 to 2069, and dates of the second form are read
back for these years only.

Main statement: `read?_forms`.
-/

namespace Webroot.HttpDate

open Text

/-! ### The older forms, written -/

/-- The name of a day of the week in full. -/
def dayName (w : Nat) : Text := dayNames.getD w ""

/-- The decimal numeral of a number, filled up with spaces in front to `width` characters. -/
def decimalSpaced (width n : Nat) : Text :=
  List.replicate (width - (decimal n).length) ' ' ++ decimal n

/-- The date of a second with a two-digit year between hyphens. -/
def formatHyphenated (s : Int) : Text :=
  let d := Instant.date s
  dayName (Date.weekday (s / 86400)) ++ ", " ++ decimalWide 2 d.day ++ "-" ++ shortMonth d.month
    ++ "-" ++ decimalWide 2 (d.year % 100).toNat ++ " " ++ clock (Instant.clock s) ++ " GMT"

/-- The date of a second without a zone and with the year at the end. -/
def formatYearLast (s : Int) : Text :=
  let d := Instant.date s
  shortDay (Date.weekday (s / 86400)) ++ " " ++ shortMonth d.month ++ " "
    ++ decimalSpaced 2 d.day ++ " " ++ clock (Instant.clock s) ++ " " ++ year d.year

/-! ### Telling the forms apart -/

/-- A date with the day of the week in full is none of mail headers. -/
theorem mail?_dayName {w : Nat} (hw : w < 7) (rest : Text) : mail? (dayName w ++ rest) = none := by
  match w, hw with
  | 0, _ | 1, _ | 2, _ | 3, _ | 4, _ | 5, _ | 6, _ => rfl

/-- A date with a blank behind the day of the week is none of mail headers. -/
theorem mail?_shortDay_blank {w : Nat} (hw : w < 7) (rest : Text) :
    mail? (shortDay w ++ ' ' :: rest) = none := by
  match w, hw with
  | 0, _ | 1, _ | 2, _ | 3, _ | 4, _ | 5, _ | 6, _ => rfl

/-- A date with a blank behind the day of the week has no year between hyphens. -/
theorem hyphenated?_shortDay_blank {w : Nat} (hw : w < 7) (rest : Text) :
    hyphenated? (shortDay w ++ ' ' :: rest) = none := by
  match w, hw with
  | 0, _ | 1, _ | 2, _ | 3, _ | 4, _ | 5, _ | 6, _ => rfl

theorem exists_char_dayName {w : Nat} (hw : w < 7) :
    ∃ c t, dayName w = c :: t ∧ isBlank c = false := by
  match w, hw with
  | 0, _ | 1, _ | 2, _ | 3, _ | 4, _ | 5, _ | 6, _ => exact ⟨_, _, rfl, by decide⟩

theorem scanDay_dayName {w : Nat} (hw : w < 7) (rest : Text) :
    scanDay (dayName w ++ rest) = some (w, rest) := by
  match w, hw with
  | 0, _ | 1, _ | 2, _ | 3, _ | 4, _ | 5, _ | 6, _ => rfl

/-! ### The pieces of the older forms -/

/-- A time of day is read with a blank in front, up to the character behind it. -/
theorem looseClock_clock {c : Clock} (hhour : c.hour < 100) (hminute : c.minute < 100)
    (hsecond : c.second < 100) {sep : Char} (hsep : sep.isDigit = false) (rest : Text) :
    looseClock (' ' :: (clock c ++ sep :: rest)) = some (c, sep :: rest) := by
  have hpieces : clock c ++ sep :: rest = decimalWide 2 c.hour ++ ':' ::
      (decimalWide 2 c.minute ++ ':' :: (decimalWide 2 c.second ++ sep :: rest)) := by
    simp [clock]
  rw [hpieces, looseClock]
  refine bind_eq_some_of_eq (number_two_trimStart hhour (by decide) (by decide) _) ?_
  refine bind_eq_some_of_eq (after?_append [':'] _) ?_
  refine bind_eq_some_of_eq (number_two_trimStart hminute (by decide) (by decide) _) ?_
  refine bind_eq_some_of_eq (after?_append [':'] _) ?_
  exact bind_eq_some_of_eq (number_two_trimStart hsecond (by decide) hsep _) rfl

/-- A number is read behind the spaces that fill it up to two characters. -/
theorem number_decimalSpaced {n : Nat} (hn : n < 100) {sep : Char} (hsep : sep.isDigit = false)
    (rest : Text) :
    number 1 2 (trimStart (' ' :: (decimalSpaced 2 n ++ sep :: rest))) = some (n, sep :: rest) := by
  have hlength : (decimal n).length ≤ 2 :=
    (Nat.length_toDigits_le_iff (by decide) (by decide)).mpr hn
  have hpos : 0 < (decimal n).length := Nat.length_toDigits_pos
  have hfits : n < Nat.pow 10 (decimal n).length :=
    (Nat.length_toDigits_le_iff (by decide) hpos).mp (Nat.le_refl _)
  -- without the spaces it is a number that fills its own width
  have hwide : decimal n = decimalWide (decimal n).length n := by
    rw [decimalWide, Nat.sub_self, List.replicate_zero, List.nil_append]
  have hblank : ∀ c ∈ ' ' :: List.replicate (2 - (decimal n).length) ' ', isBlank c = true := by
    rintro c (_ | ⟨_, hc⟩)
    · decide
    · rw [List.eq_of_mem_replicate hc]
      decide
  have htrim : trimStart (' ' :: (decimalSpaced 2 n ++ sep :: rest)) =
      trimStart (decimal n ++ sep :: rest) := by
    rw [decimalSpaced, List.append_assoc, ← List.cons_append, trimStart,
      List.dropWhile_append_of_pos hblank, trimStart]
  rw [htrim, hwide, trimStart_decimalWide hpos hfits]
  exact number_decimalWide hpos hfits hpos hlength (by omega) (by simpa using hsep)

/-- A year of four digits is read without a sign. -/
theorem signedYear_four {y : Nat} (hy : y < 10000) :
    signedYear (trimStart (' ' :: decimalWide 4 y)) = some ((y : Int), []) := by
  have htrim : trimStart (' ' :: decimalWide 4 y) = decimalWide 4 y := by
    have h := trimStart_blank_decimalWide (w := 4) (by decide) hy []
    rwa [List.append_nil] at h
  have hnumber : number 1 4 (decimalWide 4 y) = some (y, []) := by
    have hnone : ∀ c ∈ ([] : Text).head?, c.isDigit = false := by simp
    have h : number 1 4 (decimalWide 4 y ++ []) = some (y, []) :=
      number_decimalWide (by decide) hy (by decide) (by decide) (by omega) hnone
    rwa [List.append_nil] at h
  -- a digit is no sign
  have hsign : ∀ {c : Char} (_ : c.isDigit = false) (r : Text), decimalWide 4 y ≠ c :: r := by
    intro c hc r heq
    have hdigit : c.isDigit = true := isDigit_of_mem_decimalWide (w := 4) (n := y) (by simp [heq])
    rw [hc] at hdigit
    cases hdigit
  rw [htrim, signedYear, hnumber]
  · rfl
  · exact hsign (by decide)
  · exact hsign (by decide)

/-- Two digits of a year from 1970 to 2069 denote that year. -/
theorem hyphenYear_mod {y : Int} (hfrom : 1970 ≤ y) (hto : y ≤ 2069) :
    (hyphenYear (y % 100).toNat : Int) = y := by
  rw [hyphenYear]
  split <;> omega

/-! ### The older forms, read -/

/-- The pieces of a date with a year between hyphens. -/
theorem formatHyphenated_eq (s : Int) :
    formatHyphenated s = dayName (Date.weekday (s / 86400)) ++ ',' :: ' ' ::
      (decimalWide 2 (Instant.date s).day ++ '-' :: (shortMonth (Instant.date s).month ++ '-' ::
        (decimalWide 2 ((Instant.date s).year % 100).toNat ++ ' ' ::
          (clock (Instant.clock s) ++ ' ' :: ['G', 'M', 'T'])))) := by
  simp [formatHyphenated]

/-- The pieces of a date that ends in the year. -/
theorem formatYearLast_eq {s : Int} (hyear : 0 ≤ (Instant.date s).year)
    (hyear' : (Instant.date s).year ≤ 9999) :
    formatYearLast s = shortDay (Date.weekday (s / 86400)) ++ ' ' ::
      (shortMonth (Instant.date s).month ++ ' ' :: (decimalSpaced 2 (Instant.date s).day ++ ' ' ::
        (clock (Instant.clock s) ++ ' ' :: decimalWide 4 (Instant.date s).year.toNat))) := by
  rw [formatYearLast, year_eq_decimalWide hyear hyear']
  simp

theorem hyphenated?_formatHyphenated {s : Int} (hfrom : 1970 ≤ (Instant.date s).year)
    (hto : (Instant.date s).year ≤ 2069) :
    hyphenated? (formatHyphenated s) =
      some { weekday := some (Date.weekday (s / 86400))
             date := Instant.date s
             clock := Instant.clock s } := by
  obtain ⟨hmonth, hday⟩ := Instant.date_bounds s
  obtain ⟨hhour, hminute, hsecond⟩ := Instant.clock_lt s
  have htwo : ((Instant.date s).year % 100).toNat < 100 := by omega
  have hgmt : after? "GMT" (trimStart [' ', 'G', 'M', 'T']) = some [] := by decide
  rw [formatHyphenated_eq, hyphenated?]
  refine bind_eq_some_of_eq (scanDay_dayName (weekday_lt _) _) ?_
  refine bind_eq_some_of_eq (after?_append [','] _) ?_
  refine bind_eq_some_of_eq (number_two_blank hday (by decide) (by decide) _) ?_
  refine bind_eq_some_of_eq (after?_append ['-'] _) ?_
  refine bind_eq_some_of_eq (scanShortMonth_shortMonth hmonth _) ?_
  refine bind_eq_some_of_eq (after?_append ['-'] _) ?_
  refine bind_eq_some_of_eq (number_two_trimStart htwo (by decide) (by decide) _) ?_
  refine bind_eq_some_of_eq
    (looseClock_clock (by omega) (by omega) (by omega) (by decide) _) ?_
  refine bind_eq_some_of_eq hgmt ?_
  rw [hyphenYear_mod hfrom hto]
  rfl

theorem yearLast?_formatYearLast {s : Int} (hyear : 0 ≤ (Instant.date s).year)
    (hyear' : (Instant.date s).year ≤ 9999) :
    yearLast? (formatYearLast s) =
      some { weekday := some (Date.weekday (s / 86400))
             date := Instant.date s
             clock := Instant.clock s } := by
  obtain ⟨hmonth, hday⟩ := Instant.date_bounds s
  obtain ⟨hhour, hminute, hsecond⟩ := Instant.clock_lt s
  have hmonth' : ∀ rest, scanShortMonth
      (trimStart (' ' :: (shortMonth (Instant.date s).month ++ rest))) =
        some ((Instant.date s).month, rest) := by
    intro rest
    rw [trimStart_blank_shortMonth hmonth]
    exact scanShortMonth_shortMonth hmonth rest
  rw [formatYearLast_eq hyear hyear', yearLast?]
  refine bind_eq_some_of_eq (scanShortDay_shortDay (weekday_lt _) _) ?_
  refine bind_eq_some_of_eq (hmonth' _) ?_
  refine bind_eq_some_of_eq (number_decimalSpaced hday (by decide) _) ?_
  refine bind_eq_some_of_eq
    (looseClock_clock (by omega) (by omega) (by omega) (by decide) _) ?_
  refine bind_eq_some_of_eq (signedYear_four (by omega)) ?_
  rw [Int.toNat_of_nonneg hyear]
  rfl

/-! ### The search through the forms -/

theorem trimmed_formatHyphenated (s : Int) : Trimmed (formatHyphenated s) := by
  constructor
  · obtain ⟨c, t, hcons, hc⟩ := exists_char_dayName (weekday_lt (s / 86400))
    rw [formatHyphenated_eq, hcons]
    rintro c' ⟨⟩
    exact hc
  · have hlast : (formatHyphenated s).getLast? = some 'T' := by
      rw [formatHyphenated, List.getLast?_append_of_ne_nil _ (by decide)]
      rfl
    rw [hlast]
    rintro c' ⟨⟩
    decide

theorem trimmed_formatYearLast {s : Int} (hyear : 0 ≤ (Instant.date s).year)
    (hyear' : (Instant.date s).year ≤ 9999) : Trimmed (formatYearLast s) := by
  constructor
  · obtain ⟨c, t, hcons, hc⟩ := exists_char_shortDay (weekday_lt (s / 86400))
    rw [formatYearLast_eq hyear hyear', hcons]
    rintro c' ⟨⟩
    exact hc
  · have hfour : (Instant.date s).year.toNat < 10000 := by omega
    obtain ⟨c, t, hcons, -⟩ := exists_digit_decimalWide (w := 4) (by decide) hfour
    have hne : decimalWide 4 (Instant.date s).year.toNat ≠ [] := by simp [hcons]
    rw [formatYearLast, year_eq_decimalWide hyear hyear', List.getLast?_append_of_ne_nil _ hne]
    intro c hc
    exact isBlank_of_isDigit (isDigit_of_mem_decimalWide (List.mem_of_mem_getLast? hc))

theorem read?_formatHyphenated {s : Int} (hfrom : 1970 ≤ (Instant.date s).year)
    (hto : (Instant.date s).year ≤ 2069) : read? (formatHyphenated s) = some ⟨s, 0⟩ := by
  have hmail : mail? (formatHyphenated s) = none := by
    rw [formatHyphenated_eq]
    exact mail?_dayName (weekday_lt _) _
  rw [read?, trim_of_trimmed (trimmed_formatHyphenated s), List.findSome?_cons, hmail,
    Option.bind_none, List.findSome?_cons, hyphenated?_formatHyphenated hfrom hto,
    Option.bind_some, instant?_stamp (by omega) (by omega)]

theorem read?_formatYearLast {s : Int} (hyear : 0 ≤ (Instant.date s).year)
    (hyear' : (Instant.date s).year ≤ 9999) : read? (formatYearLast s) = some ⟨s, 0⟩ := by
  have hmail : mail? (formatYearLast s) = none := by
    rw [formatYearLast_eq hyear hyear']
    exact mail?_shortDay_blank (weekday_lt _) _
  have hhyphenated : hyphenated? (formatYearLast s) = none := by
    rw [formatYearLast_eq hyear hyear']
    exact hyphenated?_shortDay_blank (weekday_lt _) _
  rw [read?, trim_of_trimmed (trimmed_formatYearLast hyear hyear'), List.findSome?_cons, hmail,
    Option.bind_none, List.findSome?_cons, hhyphenated, Option.bind_none, List.findSome?_cons,
    yearLast?_formatYearLast hyear hyear', Option.bind_some, instant?_stamp hyear hyear']

/-- White space around a date is of no account. -/
theorem read?_append_append_of_blank {a b : Text} (ha : ∀ c ∈ a, isBlank c = true)
    (hb : ∀ c ∈ b, isBlank c = true) (t : Text) : read? (a ++ (t ++ b)) = read? t := by
  rw [read?, read?, trim_append_append_of_blank ha hb]

/-- **The three forms of dates.** A second in the years from 0 to 9999 is read back from its date as
it is written here and from the one that ends in the year, and a second in the years from 1970 to
2069 also from the one with a two-digit year, whatever white space stands around them. -/
theorem read?_forms {before after : Text} (hbefore : ∀ c ∈ before, isBlank c = true)
    (hafter : ∀ c ∈ after, isBlank c = true) (s : Int) :
    (0 ≤ (Instant.date s).year ∧ (Instant.date s).year ≤ 9999 →
      read? (before ++ (format s ++ after)) = some ⟨s, 0⟩ ∧
        read? (before ++ (formatYearLast s ++ after)) = some ⟨s, 0⟩) ∧
    (1970 ≤ (Instant.date s).year ∧ (Instant.date s).year ≤ 2069 →
      read? (before ++ (formatHyphenated s ++ after)) = some ⟨s, 0⟩) := by
  simp only [read?_append_append_of_blank hbefore hafter]
  refine ⟨fun ⟨hyear, hyear'⟩ => ⟨?_, ?_⟩, fun ⟨hfrom, hto⟩ => ?_⟩
  · exact read?_format hyear hyear'
  · exact read?_formatYearLast hyear hyear'
  · exact read?_formatHyphenated hfrom hto

/-- One second in all three forms, with white space around them. -/
theorem read?_forms_1994 :
    read? "  Sun, 06 Nov 1994 08:49:37 GMT\t" = some ⟨784111777, 0⟩ ∧
      read? "  Sun Nov  6 08:49:37 1994\t" = some ⟨784111777, 0⟩ ∧
      read? "  Sunday, 06-Nov-94 08:49:37 GMT\t" = some ⟨784111777, 0⟩ := by
  have hbefore : ∀ c ∈ String.toList "  ", isBlank c = true := List.all_eq_true.mp (by decide)
  have hafter : ∀ c ∈ String.toList "\t", isBlank c = true := List.all_eq_true.mp (by decide)
  have hyear : (Instant.date 784111777).year = 1994 := by decide +kernel
  have hmail : format 784111777 = String.toList "Sun, 06 Nov 1994 08:49:37 GMT" := by
    decide +kernel
  have hlast : formatYearLast 784111777 = String.toList "Sun Nov  6 08:49:37 1994" := by
    decide +kernel
  have hhyphenated :
      formatHyphenated 784111777 = String.toList "Sunday, 06-Nov-94 08:49:37 GMT" := by
    decide +kernel
  obtain ⟨hfour, htwo⟩ := read?_forms hbefore hafter 784111777
  rw [hyear, hmail, hlast] at hfour
  rw [hyear, hhyphenated] at htwo
  obtain ⟨hmail', hlast'⟩ := hfour (by decide)
  exact ⟨hmail', hlast', htwo (by decide)⟩

end Webroot.HttpDate
