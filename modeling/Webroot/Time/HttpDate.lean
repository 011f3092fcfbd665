import Webroot.Text.Numeral
import Webroot.Time.Instant

/-!
# Dates in header fields, written

A date in a header field reads `Sun, 06 Nov 1994 08:49:37 GMT`. Years outside 0 … 9999 carry a
sign.
-/

namespace Webroot.HttpDate

open Text

/-- The names of the days of the week from Monday on. -/
def dayNames : List String :=
  ["Monday", "Tuesday", "Wednesday", "Thursday", "Friday", "Saturday", "Sunday"]

/-- The short names of the months. -/
def monthNames : List String :=
  ["Jan", "Feb", "Mar", "Apr", "May", "Jun", "Jul", "Aug", "Sep", "Oct", "Nov", "Dec"]

/-- The short name of a day of the week. -/
def shortDay (w : Nat) : Text := (dayNames.getD w "").toList.take 3

/-- The short name of a month, from 1 for January. -/
def shortMonth (m : Nat) : Text := monthNames.getD (m - 1) ""

/-- A year with at least four digits, and with a sign outside 0 … 9999. -/
def year (y : Int) : Text :=
  let digits := decimalWide 4 y.natAbs
  if y < 0 then '-' :: digits else if y < 10000 then digits else '+' :: digits

/-- A time of day. -/
def clock (c : Clock) : Text :=
  decimalWide 2 c.hour ++ ":" ++ decimalWide 2 c.minute ++ ":" ++ decimalWide 2 c.second

/-- The date of a second, as header fields have it. -/
def format (s : Int) : Text :=
  let d := Instant.date s
  shortDay (Date.weekday (s / 86400)) ++ ", " ++ decimalWide 2 d.day ++ " " ++ shortMonth d.month
    ++ " " ++ year d.year ++ " " ++ clock (Instant.clock s) ++ " GMT"

/-- The date of a second to the minute, as in the lines of a listing. -/
def brief (s : Int) : Text :=
  let d := Instant.date s
  let c := Instant.clock s
  year d.year ++ "/" ++ decimalWide 2 d.month ++ "/" ++ decimalWide 2 d.day ++ " "
    ++ decimalWide 2 c.hour ++ ":" ++ decimalWide 2 c.minute

end Webroot.HttpDate
