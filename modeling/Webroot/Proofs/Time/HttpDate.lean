import Webroot.Proofs.Text.Basic
import Webroot.Proofs.Time.Calendar
import Webroot.Time.HttpDateReader

/-!
# Dates in header fields, written and read

The date of a second in the years from 0 to 9999 is read back as that second. It is read in the form
of mail headers, which is tried first, one piece at a time: every piece is followed by a character
that cannot belong to it.

Main statement: `read?_format`.
-/

namespace Webroot.HttpDate

open Text

/-! ### Numbers -/

/-- A number filled up to a width that it fits in has that width. -/
theorem length_decimalWide {w n : Nat} (hw : 0 < w) (hn : n < Nat.pow 10 w) :
    (decimalWide w n).length = w := by
  have hle : (decimal n).length ≤ w := (Nat.length_toDigits_le_iff (by decide) hw).mpr hn
  rw [decimalWide, List.length_append, List.length_replicate]
  omega

theorem isDigit_of_mem_decimalWide {w n : Nat} {c : Char} (h : c ∈ decimalWide w n) :
    c.isDigit = true :=
  isDigit_of_mem_numeral h

/-- A number of fixed width is read up to the end of its digits. -/
theorem number_decimalWide {least most w n : Nat} (hw : 0 < w) (hn : n < Nat.pow 10 w)
    (hleast : least ≤ w) (hmost : w ≤ most) (hword : n < 0x8000000000000000) {rest : Text}
    (hrest : ∀ c ∈ rest.head?, c.isDigit = false) :
    number least most (decimalWide w n ++ rest) = some (n, rest) := by
  have hdigits : ∀ c ∈ decimalWide w n, c.isDigit = true := fun c => isDigit_of_mem_decimalWide
  have hlength := length_decimalWide hw hn
  -- what follows stops the digits, so reading takes the number and no more
  have htake : ((decimalWide w n ++ rest).takeWhile Char.isDigit).take most = decimalWide w n := by
    rw [takeWhile_append_of_first hdigits hrest, List.take_of_length_le (by omega)]
  have hvalue : Nat.ofDigitChars 10 (decimalWide w n) 0 = n := by
    rw [decimalWide, Nat.ofDigitChars_append, Nat.ofDigitChars_replicate_zero, decimal,
      Nat.mul_zero, Nat.ofDigitChars_ten_toDigits]
  have hdrop : (decimalWide w n ++ rest).drop w = rest := List.drop_left' hlength
  simp only [number, htake, hvalue, hlength, hdrop]
  rw [if_pos ⟨hleast, hword⟩]

/-- A number of two digits is read up to the separator after it. -/
theorem number_two {n least : Nat} (hn : n < 100) (hleast : least ≤ 2) {sep : Char}
    (hsep : sep.isDigit = false) (rest : Text) :
    number least 2 (decimalWide 2 n ++ sep :: rest) = some (n, sep :: rest) :=
  number_decimalWide (by decide) hn hleast (by decide) (by omega) (by simpa using hsep)

/-! ### Names -/

theorem weekday_lt (n : Int) : Date.weekday n < 7 := by
  rw [Date.weekday]
  omega

theorem scanShortDay_shortDay {w : Nat} (hw : w < 7) (rest : Text) :
    scanShortDay (shortDay w ++ rest) = some (w, rest) := by
  match w, hw with
  | 0, _ | 1, _ | 2, _ | 3, _ | 4, _ | 5, _ | 6, _ => rfl

theorem scanShortMonth_shortMonth {m : Nat} (hm : 1 ≤ m ∧ m ≤ 12) (rest : Text) :
    scanShortMonth (shortMonth m ++ rest) = some (m, rest) := by
  match m, hm with
  | 1, _ | 2, _ | 3, _ | 4, _ | 5, _ | 6, _ | 7, _ | 8, _ | 9, _ | 10, _ | 11, _ | 12, _ => rfl

/-! ### White space between the pieces -/

theorem blanks_cons {c : Char} (h : isBlank c = false) (t : Text) :
    blanks (' ' :: c :: t) = some (c :: t) := by
  have htrim : trimStart (' ' :: c :: t) = c :: t := trimStart_cons h t
  simp [blanks, htrim]

/-- A number of fixed width starts with a digit. -/
theorem exists_digit_decimalWide {w n : Nat} (hw : 0 < w) (hn : n < Nat.pow 10 w) :
    ∃ c t, decimalWide w n = c :: t ∧ isBlank c = false := by
  have hne : decimalWide w n ≠ [] := by
    rw [ne_eq, ← List.length_eq_zero_iff, length_decimalWide hw hn]
    omega
  obtain ⟨c, t, hcons⟩ := List.exists_cons_of_ne_nil hne
  have hc : c ∈ decimalWide w n := by
    rw [hcons]
    exact List.mem_cons_self
  exact ⟨c, t, hcons, isBlank_of_isDigit (isDigit_of_mem_decimalWide hc)⟩

theorem trimStart_decimalWide {w n : Nat} (hw : 0 < w) (hn : n < Nat.pow 10 w) (rest : Text) :
    trimStart (decimalWide w n ++ rest) = decimalWide w n ++ rest := by
  obtain ⟨c, t, hcons, hc⟩ := exists_digit_decimalWide hw hn
  rw [hcons, List.cons_append, trimStart_cons hc]

theorem trimStart_blank_decimalWide {w n : Nat} (hw : 0 < w) (hn : n < Nat.pow 10 w) (rest : Text) :
    trimStart (' ' :: (decimalWide w n ++ rest)) = decimalWide w n ++ rest :=
  trimStart_decimalWide hw hn rest

/-- White space in front of a number of two digits is passed over. -/
theorem number_two_trimStart {n least : Nat} (hn : n < 100) (hleast : least ≤ 2) {sep : Char}
    (hsep : sep.isDigit = false) (rest : Text) :
    number least 2 (trimStart (decimalWide 2 n ++ sep :: rest)) = some (n, sep :: rest) := by
  rw [trimStart_decimalWide (by decide) hn]
  exact number_two hn hleast hsep rest

theorem number_two_blank {n least : Nat} (hn : n < 100) (hleast : least ≤ 2) {sep : Char}
    (hsep : sep.isDigit = false) (rest : Text) :
    number least 2 (trimStart (' ' :: (decimalWide 2 n ++ sep :: rest))) = some (n, sep :: rest) :=
  number_two_trimStart hn hleast hsep rest

theorem blanks_decimalWide {w n : Nat} (hw : 0 < w) (hn : n < Nat.pow 10 w) (rest : Text) :
    blanks (' ' :: (decimalWide w n ++ rest)) = some (decimalWide w n ++ rest) := by
  obtain ⟨c, t, hcons, hc⟩ := exists_digit_decimalWide hw hn
  rw [hcons, List.cons_append, blanks_cons hc]

theorem exists_char_shortMonth {m : Nat} (hm : 1 ≤ m ∧ m ≤ 12) :
    ∃ c t, shortMonth m = c :: t ∧ isBlank c = false := by
  match m, hm with
  | 1, _ | 2, _ | 3, _ | 4, _ | 5, _ | 6, _ | 7, _ | 8, _ | 9, _ | 10, _ | 11, _ | 12, _ =>
    exact ⟨_, _, rfl, by decide⟩

theorem trimStart_blank_shortMonth {m : Nat} (hm : 1 ≤ m ∧ m ≤ 12) (rest : Text) :
    trimStart (' ' :: (shortMonth m ++ rest)) = shortMonth m ++ rest := by
  obtain ⟨c, t, hcons, hc⟩ := exists_char_shortMonth hm
  rw [hcons, List.cons_append]
  exact trimStart_cons hc (t ++ rest)

theorem blanks_shortMonth {m : Nat} (hm : 1 ≤ m ∧ m ≤ 12) (rest : Text) :
    blanks (' ' :: (shortMonth m ++ rest)) = some (shortMonth m ++ rest) := by
  obtain ⟨c, t, hcons, hc⟩ := exists_char_shortMonth hm
  rw [hcons, List.cons_append, blanks_cons hc]

theorem exists_char_shortDay {w : Nat} (hw : w < 7) :
    ∃ c t, shortDay w = c :: t ∧ isBlank c = false := by
  match w, hw with
  | 0, _ | 1, _ | 2, _ | 3, _ | 4, _ | 5, _ | 6, _ => exact ⟨_, _, rfl, by decide⟩

/-! ### The pieces of a date -/

/-- The text of a date from its pieces. -/
def spell (w d m y : Nat) (c : Clock) : Text :=
  shortDay w ++ ',' :: ' ' :: (decimalWide 2 d ++ ' ' :: (shortMonth m ++ ' ' ::
    (decimalWide 4 y ++ ' ' :: (decimalWide 2 c.hour ++ ':' :: (decimalWide 2 c.minute ++ ':' ::
      (decimalWide 2 c.second ++ ' ' :: ['G', 'M', 'T']))))))

/-- A year from 0 to 9999 is written in four digits. -/
theorem year_eq_decimalWide {y : Int} (hyear : 0 ≤ y) (hyear' : y ≤ 9999) :
    year y = decimalWide 4 y.toNat := by
  have habs : y.natAbs = y.toNat := by omega
  rw [year, if_neg (by omega), if_pos (by omega), habs]

/-- A date in the years from 0 to 9999 is written as its pieces. -/
theorem format_eq_spell {s : Int} (hyear : 0 ≤ (Instant.date s).year)
    (hyear' : (Instant.date s).year ≤ 9999) :
    format s = spell (Date.weekday (s / 86400)) (Instant.date s).day (Instant.date s).month
      (Instant.date s).year.toNat (Instant.clock s) := by
  simp only [format, year_eq_decimalWide hyear hyear', clock, spell]
  simp

/-- The day of the week is read with its comma. -/
theorem mailDay_shortDay {w : Nat} (hw : w < 7) (rest : Text) :
    mailDay (trimStart (shortDay w ++ ',' :: rest)) = some (some w, rest) := by
  obtain ⟨c, t, hcons, hc⟩ := exists_char_shortDay hw
  have htrim : trimStart (shortDay w ++ ',' :: rest) = shortDay w ++ ',' :: rest := by
    rw [hcons, List.cons_append, trimStart_cons hc]
  rw [htrim, mailDay, scanShortDay_shortDay hw]
  rfl

/-- A year of four digits is read as it is. -/
theorem longNumber_year {y : Nat} (hy : y < 10000) (rest : Text) :
    longNumber 2 (decimalWide 4 y ++ ' ' :: rest) = some (y, ' ' :: rest) := by
  have hlength := length_decimalWide (w := 4) (by decide) hy
  exact number_decimalWide (by decide) hy (by decide)
    (by rw [List.length_append, hlength]; omega) (by omega) (by simp)

theorem mailYear_four (y : Nat) (rest : Text) (hy : y < 10000) :
    mailYear ((decimalWide 4 y ++ ' ' :: rest).length - (' ' :: rest).length) y = y := by
  have hfour : (decimalWide 4 y ++ ' ' :: rest).length - (' ' :: rest).length = 4 := by
    rw [List.length_append, length_decimalWide (by decide) hy, Nat.add_sub_cancel]
  rw [hfour]
  rfl

/-- The seconds are read after a colon. -/
theorem mailSeconds_colon {n : Nat} (hn : n < 100) (rest : Text) :
    mailSeconds (':' :: (decimalWide 2 n ++ ' ' :: rest)) = some (n, ' ' :: rest) := by
  have hcolon : trimStart (':' :: (decimalWide 2 n ++ ' ' :: rest)) =
      ':' :: (decimalWide 2 n ++ ' ' :: rest) := trimStart_cons (by decide) _
  rw [mailSeconds, hcolon]
  exact number_two hn (by decide) (by decide) rest

/-- A step that reads something leaves what follows. -/
theorem bind_eq_some_of_eq {α β : Type} {o : Option α} {a : α} {f : α → Option β} {b : β}
    (h : o = some a) (hf : f a = some b) : (o >>= f) = some b := by
  rw [h]
  exact hf

/-- The pieces of a date are read one after another. -/
theorem mail?_spell {w d m y : Nat} {c : Clock} (hw : w < 7) (hd : d < 100)
    (hm : 1 ≤ m ∧ m ≤ 12) (hy : y < 10000) (hhour : c.hour < 100) (hminute : c.minute < 100)
    (hsecond : c.second < 100) :
    mail? (spell w d m y c) =
      some { weekday := some w, date := ⟨y, m, d⟩, clock := c } := by
  have hgmt : blanks [' ', 'G', 'M', 'T'] = some ['G', 'M', 'T'] := by decide
  have hzone : mailZone ['G', 'M', 'T'] = some (0, []) := by decide +kernel
  rw [mail?, spell]
  -- the steps of the reader in their order, one line for each
  refine bind_eq_some_of_eq (mailDay_shortDay hw _) ?_
  refine bind_eq_some_of_eq (number_two_blank hd (by decide) (by decide) _) ?_
  refine bind_eq_some_of_eq (blanks_shortMonth hm _) ?_
  refine bind_eq_some_of_eq (scanShortMonth_shortMonth hm _) ?_
  refine bind_eq_some_of_eq (blanks_decimalWide (by decide) hy _) ?_
  refine bind_eq_some_of_eq (longNumber_year hy _) ?_
  refine bind_eq_some_of_eq (blanks_decimalWide (by decide) hhour _) ?_
  refine bind_eq_some_of_eq (number_two hhour (by decide) (by decide) _) ?_
  refine bind_eq_some_of_eq (a := decimalWide 2 c.minute ++ ':' ::
    (decimalWide 2 c.second ++ [' ', 'G', 'M', 'T'])) rfl ?_
  refine bind_eq_some_of_eq (number_two_trimStart hminute (by decide) (by decide) _) ?_
  refine bind_eq_some_of_eq (mailSeconds_colon hsecond _) ?_
  refine bind_eq_some_of_eq hgmt ?_
  refine bind_eq_some_of_eq hzone ?_
  dsimp only
  rw [mailYear_four y _ hy]
  rfl

/-! ### From the pieces to the second -/

/-- The pieces of a second denote that second. -/
theorem instant?_stamp {s : Int} (hyear : 0 ≤ (Instant.date s).year)
    (hyear' : (Instant.date s).year ≤ 9999) :
    Stamp.instant?
      { weekday := some (Date.weekday (s / 86400))
        date := Instant.date s
        clock := Instant.clock s } = some ⟨s, 0⟩ := by
  obtain ⟨hstart, hnext⟩ := Date.day_bounds_of_year hyear hyear'
  have hbounds : firstDay ≤ s / 86400 ∧ s / 86400 ≤ lastDay := by
    have hfirst : firstDay ≤ Date.yearStart 0 - Date.epoch := by decide +kernel
    have hlast : Date.yearStart (9999 + 1) - Date.epoch ≤ lastDay := by decide +kernel
    omega
  have hcalendar : inCalendar (s / 86400) = true := by
    simpa [inCalendar] using hbounds
  obtain ⟨hhour, hminute, hsecond⟩ := Instant.clock_lt s
  have hseconds := Instant.seconds_eq s
  have hdays : Date.toDays (Instant.date s) = s / 86400 := Date.toDays_ofDays _
  have hvalid : (Instant.date s).isValid = true := Date.isValid_ofDays _
  -- the time of day has no sixtieth second, so nothing is cut off
  have hmin : min (Instant.clock s).second 59 = (Instant.clock s).second := by omega
  have hleap : (Instant.clock s).second ≠ 60 := by omega
  have hoffset : s - 0 = s := by omega
  simp only [Stamp.instant?, hdays, hmin, hseconds, hvalid, hcalendar, Option.getD_some,
    beq_self_eq_true, Bool.true_and, hoffset, if_neg hleap]
  rw [if_pos (by simp; omega)]

/-- A date neither starts nor ends with white space. -/
theorem trimmed_spell {w : Nat} (hw : w < 7) (d m y : Nat) (c : Clock) :
    Trimmed (spell w d m y c) := by
  obtain ⟨first, t, hcons, hfirst⟩ := exists_char_shortDay hw
  constructor
  · rw [spell, hcons]
    rintro c' ⟨⟩
    exact hfirst
  · have hlast : (spell w d m y c).getLast? = some 'T' := by
      simp [spell, List.getLast?_cons, List.getLast?_append]
    rw [hlast]
    rintro c' ⟨⟩
    decide

/-- **Dates.** The date of a second in the years from 0 to 9999 is read as that second. -/
theorem read?_format {s : Int} (hyear : 0 ≤ (Instant.date s).year)
    (hyear' : (Instant.date s).year ≤ 9999) : read? (format s) = some ⟨s, 0⟩ := by
  have hw := weekday_lt (s / 86400)
  obtain ⟨hmonth, hday⟩ := Instant.date_bounds s
  obtain ⟨hhour, hminute, hsecond⟩ := Instant.clock_lt s
  have hmail := mail?_spell (c := Instant.clock s) hw hday hmonth
    (by omega : (Instant.date s).year.toNat < 10000) (by omega) (by omega) (by omega)
  have hcast : ((Instant.date s).year.toNat : Int) = (Instant.date s).year := by omega
  rw [hcast] at hmail
  rw [read?, format_eq_spell hyear hyear', trim_of_trimmed (trimmed_spell hw _ _ _ _)]
  rw [List.findSome?_cons, hmail, Option.bind_some, instant?_stamp hyear hyear']

end Webroot.HttpDate
