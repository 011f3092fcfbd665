import Webroot.Number.Binary64
import Webroot.Text.Numeral
import Webroot.Text.Reader
import Webroot.Time.Calendar
import Webroot.Toml.Value

/-!
# Numbers and dates of TOML
-/

namespace Webroot.Toml

open Text

/-! ### Numbers -/

/-- Digits with single underscores between them, as the digits alone. -/
def digits (isDigit : Char → Bool) : Reader Text := fun t =>
  let run := t.takeWhile fun c => isDigit c || c == '_'
  let groups := run.splitOn '_'
  if groups.any List.isEmpty then none else some (groups.flatten, t.drop run.length)

/-- A sign, if there is one, and whether it is a minus sign. -/
def sign : Reader Bool := fun t =>
  match t with
  | '+' :: r => some (false, r)
  | '-' :: r => some (true, r)
  | t => some (false, t)

/-- A decimal number without a leading zero, with its sign: whether it is negative, and its
digits. -/
def signedDigits : Reader (Bool × Text) := fun t => do
  let (negative, r) ← sign t
  match r with
  | '0' :: rest => some ((negative, ['0']), rest)
  | r => (digits Char.isDigit r).map fun (ds, rest) => ((negative, ds), rest)

/-- An integer from its sign and size, if it has 64 bits. -/
def int64? (negative : Bool) (n : Nat) : Option Int :=
  let i : Int := if negative then -n else n
  if -0x8000000000000000 ≤ i ∧ i < 0x8000000000000000 then some i else none

/-- The value of a digit of a base up to sixteen. -/
def digitValue (c : Char) : Nat :=
  if c.isDigit then c.toNat - 48 else c.toLower.toNat - 87

/-- An integer in the base of a prefix after the prefix. -/
def basedInteger (base : Nat) : Reader Int := fun t => do
  let isDigit := fun c : Char =>
    (c.isDigit || (97 ≤ c.toLower.toNat && c.toLower.toNat ≤ 102)) && digitValue c < base
  let (ds, r) ← digits isDigit t
  let i ← int64? false (ds.foldl (fun a c => a * base + digitValue c) 0)
  some (i, r)

/-- An integer. -/
def integer : Reader Int := fun t =>
  match t with
  | '0' :: 'x' :: r => basedInteger 16 r
  | '0' :: 'o' :: r => basedInteger 8 r
  | '0' :: 'b' :: r => basedInteger 2 r
  | t => do
    let ((negative, ds), r) ← signedDigits t
    let i ← int64? negative (Nat.ofDigitChars 10 ds 0)
    some (i, r)

/-- The exponent of a float: whether it is negative, and its digits. -/
def exponent : Reader (Bool × Text) := fun t =>
  match t with
  | 'e' :: r | 'E' :: r => do
    let (negative, r) ← sign r
    let (ds, rest) ← digits Char.isDigit r
    some ((negative, ds), rest)
  | _ => none

/-- The digits after the point of a float. -/
def fraction : Reader Text := fun t =>
  match t with
  | '.' :: r => digits Char.isDigit r
  | _ => none

/-- The size of an exponent. Once it has reached 65536, the digits after that are passed over. -/
def exponentSize (ds : Text) : Nat :=
  ds.foldl (fun e c => if e < 0x10000 then 10 * e + digitValue c else e) 0

/-- The number of digits of the largest float. -/
def maxDigits : Nat := 309

/-- Whether a decimal number with its point moved to the right by `shift` places is too large for
a float. The number of digits before the point decides, unless it is that of the largest float. -/
def overflows (ds : Text) (shift : Int) : Bool :=
  let significant := ds.dropWhile (· == '0')
  let size : Int := significant.length + shift
  if significant.isEmpty ∨ size < maxDigits then false
  else if maxDigits < size then true
  else
    Binary64.units (Nat.ofDigitChars 10 significant 0 * Nat.pow 10 shift.toNat)
      (Nat.pow 10 (-shift).toNat) = Binary64.limit

/-- A float with a fraction or an exponent, that is not too large. -/
def decimalFloat : Reader Unit := fun t => do
  let ((negative, whole), r) ← signedDigits t
  let (places, r') ← Reader.optional fraction r
  let (power, rest) ← Reader.optional exponent r'
  let (negativeExponent, es) := power.getD (false, ['0'])
  let e : Int := exponentSize es
  let shift := (if negativeExponent then -e else e) - (places.getD []).length
  if places.isNone ∧ power.isNone then none
  else if !negative && overflows (whole ++ places.getD []) shift then none
  else some ((), rest)

/-- The floats with names. -/
def namedFloat : Reader Unit := fun t => do
  let (_, r) ← sign t
  Reader.orElse (Reader.exactly "inf") (Reader.exactly "nan") r

/-! ### Dates -/

/-- A number of `n` digits from `lo` to `hi`. -/
def twoDigits (n lo hi : Nat) : Reader Nat := fun t => do
  let v ← readDecimal? (t.take n)
  if n ≤ t.length ∧ lo ≤ v ∧ v ≤ hi then some (v, t.drop n) else none

/-- A date that exists. -/
def date : Reader Unit := fun t => do
  let (y, t) ← twoDigits 4 0 9999 t
  let (_, t) ← Reader.exactly ['-'] t
  let (m, t) ← twoDigits 2 1 12 t
  let (_, t) ← Reader.exactly ['-'] t
  let (d, t) ← twoDigits 2 1 31 t
  if Date.isValid ⟨y, m, d⟩ then some ((), t) else none

/-- A time of day. -/
def time : Reader Unit := fun t => do
  let (_, t) ← twoDigits 2 0 23 t
  let (_, t) ← Reader.exactly [':'] t
  let (_, t) ← twoDigits 2 0 59 t
  let (_, t) ← Reader.exactly [':'] t
  let (_, t) ← twoDigits 2 0 60 t
  match t with
  | '.' :: r =>
    let rest := r.dropWhile Char.isDigit
    if rest.length < r.length then some ((), rest) else some ((), t)
  | t => some ((), t)

/-- An offset from universal time. -/
def offset : Reader Unit := fun t =>
  match t with
  | 'Z' :: r | 'z' :: r => some ((), r)
  | '+' :: r | '-' :: r => do
    let (_, t) ← twoDigits 2 0 23 r
    let (_, t) ← Reader.exactly [':'] t
    let (_, t) ← twoDigits 2 0 59 t
    some ((), t)
  | _ => none

/-- A time of day after a date, with its offset. -/
def timeAfterDate : Reader Unit := fun t =>
  match t with
  | 'T' :: r | 't' :: r | ' ' :: r => do
    let (_, r) ← time r
    let (_, r) ← Reader.optional offset r
    some ((), r)
  | _ => none

/-- A date, perhaps with a time of day, or a time of day alone. -/
def datetime : Reader Unit := fun t =>
  match date t with
  | some (_, r) => (Reader.optional timeAfterDate r).map fun (_, r) => ((), r)
  | none => time t

/-! ### Values without parts -/

/-- Gives the text that a reader takes up. -/
def lexeme (a : Reader Unit) (make : Text → Value) : Reader Value := fun t =>
  (a t).map fun (_, r) => (make (t.take (t.length - r.length)), r)

/-- Whether a character begins a number or a date. -/
def beginsNumber (c : Char) : Bool := c.isDigit || c == '+' || c == '-'

/-- A number or a date. -/
def number : Reader Value :=
  Reader.orElse (lexeme datetime .datetime)
    (Reader.orElse (lexeme decimalFloat .float)
      (Reader.orElse (lexeme namedFloat .float)
        fun t => (integer t).map fun (i, r) => (.integer i, r)))

/-- A truth value or a float with a name. -/
def word : Reader Value := fun t =>
  match after? "true" t, after? "false" t with
  | some r, _ => some (.boolean true, r)
  | none, some r => some (.boolean false, r)
  | none, none => lexeme namedFloat .float t

end Webroot.Toml
