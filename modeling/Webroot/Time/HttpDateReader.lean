import Webroot.Time.Scan

/-!
# Dates in header fields, read

A date may come in four forms: that of mail headers, which includes the one that `format`
writes, the older one with a two-digit year between hyphens, the one without a zone that ends in
the year, and the one of the Internet profile of ISO 8601. They are tried in this order. Each
form reads a `Stamp`, and a stamp denotes an instant when its date exists, falls on the stated
day of the week and lies in the years that the calendar covers.
-/

namespace Webroot.HttpDate

open Text

/-- A date and time as written. -/
structure Stamp where
  weekday : Option Nat
  date : Date
  clock : Clock
  nanos : Nat := 0
  /-- Seconds by which the written time is ahead of universal time. -/
  offset : Int := 0
  deriving DecidableEq, Repr

/-- The first and the last day of the years that dates may lie in. -/
def firstDay : Int := Date.toDays ⟨-262143, 1, 1⟩

@[inherit_doc firstDay]
def lastDay : Int := Date.toDays ⟨262142, 12, 31⟩

/-- Whether a day number lies in the years that dates may lie in. -/
def inCalendar (n : Int) : Bool := firstDay ≤ n && n ≤ lastDay

/-- The instant that a stamp denotes. A leap second is the second before it, gone on. -/
def Stamp.instant? (s : Stamp) : Option Instant :=
  let day := s.date.toDays
  let c := s.clock
  let second := (day * 86400 + c.hour * 3600 + c.minute * 60 + min c.second 59 : Int) - s.offset
  if s.date.isValid && inCalendar day && (s.weekday.getD (Date.weekday day) == Date.weekday day)
      && c.hour < 24 && c.minute < 60 && c.second ≤ 60 && s.offset.natAbs < 86400
      && inCalendar (second / 86400) then
    some ⟨second, s.nanos + if c.second = 60 then 1000000000 else 0⟩
  else none

/-- The year that a year of mail headers denotes by its count of digits: two digits below 50 mean
this century, two other digits and any three digits the last one. -/
def mailYear (digits year : Nat) : Nat :=
  if digits = 2 then if year < 50 then year + 2000 else year + 1900
  else if digits = 3 then year + 1900
  else year

/-- The year that a two-digit year between hyphens denotes. -/
def hyphenYear (year : Nat) : Nat := if year < 70 then year + 2000 else year + 1900

/-- The day of the week at the start of a mail date, with the comma after it. -/
def mailDay (t : Text) : Option (Option Nat × Text) :=
  match scanShortDay t with
  | none => some (none, t)
  | some (w, r) => (after? "," r).map fun r => (some w, r)

/-- The seconds of a mail date, if there are any. -/
def mailSeconds (t : Text) : Option (Nat × Text) :=
  match trimStart t with
  | ':' :: r => number 2 2 r
  | _ => some (0, t)

/-- A date as in mail headers. -/
def mail? (t : Text) : Option Stamp := do
  let (weekday, t) ← mailDay (trimStart t)
  let (day, t) ← number 1 2 (trimStart t)
  let t ← blanks t
  let (month, t) ← scanShortMonth t
  let t ← blanks t
  let (year, r) ← longNumber 2 t
  let year := mailYear (t.length - r.length) year
  let t ← blanks r
  let (hour, t) ← number 2 2 t
  let t ← after? ":" (trimStart t)
  let (minute, t) ← number 2 2 (trimStart t)
  let (second, t) ← mailSeconds t
  let t ← blanks t
  let (offset, t) ← mailZone t
  if (skipComments t).isEmpty then
    some { weekday, date := ⟨year, month, day⟩, clock := ⟨hour, minute, second⟩, offset }
  else none

/-- Hours, minutes and seconds, each of one or two digits and with blanks allowed in front. -/
def looseClock (t : Text) : Option (Clock × Text) := do
  let (hour, t) ← number 1 2 (trimStart t)
  let t ← after? ":" t
  let (minute, t) ← number 1 2 (trimStart t)
  let t ← after? ":" t
  let (second, t) ← number 1 2 (trimStart t)
  some (⟨hour, minute, second⟩, t)

/-- A date with a two-digit year between hyphens, such as `Sunday, 06-Nov-94 08:49:37 GMT`. -/
def hyphenated? (t : Text) : Option Stamp := do
  let (weekday, t) ← scanDay t
  let t ← after? "," t
  let (day, t) ← number 1 2 (trimStart t)
  let t ← after? "-" t
  let (month, t) ← scanShortMonth t
  let t ← after? "-" t
  let (year, t) ← number 1 2 (trimStart t)
  let (clock, t) ← looseClock t
  let t ← after? "GMT" (trimStart t)
  if t.isEmpty then
    some { weekday := some weekday, date := ⟨hyphenYear year, month, day⟩, clock }
  else none

/-- A year of up to four digits, or of any count of digits after a sign. -/
def signedYear : Reader Int := fun t =>
  match t with
  | '-' :: r => (longNumber 1 r).map fun (y, r) => (-Int.ofNat y, r)
  | '+' :: r => (longNumber 1 r).map fun (y, r) => (Int.ofNat y, r)
  | t => (number 1 4 t).map fun (y, r) => (Int.ofNat y, r)

/-- A date that ends in the year, such as `Sun Nov  6 08:49:37 1994`. -/
def yearLast? (t : Text) : Option Stamp := do
  let (weekday, t) ← scanShortDay t
  let (month, t) ← scanShortMonth (trimStart t)
  let (day, t) ← number 1 2 (trimStart t)
  let (clock, t) ← looseClock t
  let (year, t) ← signedYear (trimStart t)
  if t.isEmpty then some { weekday := some weekday, date := ⟨year, month, day⟩, clock } else none

/-- The fraction of a second after the point: nine digits count. -/
def fraction : Reader Nat := fun t =>
  let digits := t.takeWhile Char.isDigit
  let kept := digits.take 9
  if digits.isEmpty then none
  else some (Nat.ofDigitChars 10 kept 0 * Nat.pow 10 (9 - kept.length), t.drop digits.length)

/-- The zone of an ISO date: `Z`, or an offset with a colon and any kind of minus sign. -/
def isoZone : Reader Int := fun t =>
  match t with
  | 'Z' :: r | 'z' :: r => some (0, r)
  | t => signedOffset (fun c => c == '-' || c == '−') true t

/-- A date of the Internet profile of ISO 8601, such as `1994-11-06T08:49:37Z`. -/
def iso? (t : Text) : Option Stamp := do
  let (year, t) ← number 4 4 t
  let t ← after? "-" t
  let (month, t) ← number 2 2 t
  let t ← after? "-" t
  let (day, t) ← number 2 2 t
  let t ← match t with
    | 'T' :: r | 't' :: r | ' ' :: r => some r
    | _ => none
  let (hour, t) ← number 2 2 t
  let t ← after? ":" t
  let (minute, t) ← number 2 2 t
  let t ← after? ":" t
  let (second, t) ← number 2 2 t
  let (nanos, t) ← match t with
    | '.' :: r => fraction r
    | t => some (0, t)
  let (offset, t) ← isoZone t
  if t.isEmpty then
    some { weekday := none, date := ⟨year, month, day⟩, clock := ⟨hour, minute, second⟩,
           nanos, offset }
  else none

/-- The instant of a date in any of the four forms, with blanks allowed around it. -/
def read? (t : Text) : Option Instant :=
  let t := trim t
  [mail?, hyphenated?, yearLast?, iso?].findSome? fun form => (form t).bind Stamp.instant?

end Webroot.HttpDate
