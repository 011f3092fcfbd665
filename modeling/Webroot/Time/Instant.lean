import Webroot.Time.Calendar

/-!
# Instants and times of day
-/

namespace Webroot

/-- A moment: whole seconds since the start of 1970 (universal time) and nanoseconds after that.
Inside a leap second the nanoseconds go on beyond 10 ^ 9. -/
structure Instant where
  seconds : Int
  nanos : Nat
  deriving DecidableEq, Repr

/-- A time of day. The second 60 is a leap second. -/
structure Clock where
  hour : Nat
  minute : Nat
  second : Nat
  deriving DecidableEq, Repr

namespace Instant

/-- The date on which the second falls. -/
def date (s : Int) : Date := Date.ofDays (s / 86400)

/-- The time of day at which the second falls. -/
def clock (s : Int) : Clock :=
  let n := (s % 86400).toNat
  { hour := n / 3600, minute := n / 60 % 60, second := n % 60 }

/-- Whether an instant comes before another or is the same. -/
def le (a b : Instant) : Bool :=
  a.seconds < b.seconds || (a.seconds == b.seconds && a.nanos ≤ b.nanos)

end Instant

end Webroot
