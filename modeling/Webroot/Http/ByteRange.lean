import Webroot.Text.Blank
import Webroot.Text.Numeral

/-!
# Byte ranges

A range field asks for parts of a file: `a-b` from one position to another, `a-` from a position
to the end, `-n` the last `n` bytes. A `RangeSpec` keeps both ends as 64-bit numbers, where a
negative number counts from the end of the file. For a file of a given size it denotes a `Span`,
or nothing when it starts outside the file or ends before it starts.
-/

namespace Webroot.Http

open Text

/-- A range as asked for. A negative end counts from the end of the file: `-1` is the last
byte. -/
structure RangeSpec where
  first : Int64
  last : Int64
  deriving DecidableEq, Repr

/-- A part of a file: the positions of its first and its last byte. -/
structure Span where
  first : Nat
  last : Nat
  deriving DecidableEq, Repr

namespace Span

/-- The number of bytes of a span. -/
def length (s : Span) : Nat := s.last - s.first + 1

/-- The value of the content-range field for a span of a file. -/
def contentRange (s : Span) (size : Nat) : Text :=
  "bytes " ++ decimal s.first ++ "-" ++ decimal s.last ++ "/" ++ decimal size

end Span

namespace RangeSpec

/-! ### Reading -/

/-- A position: a decimal numeral below 2 ^ 63. -/
def position? (t : Text) : Option Int64 :=
  (readDecimal? t).bind fun n => if n < 0x8000000000000000 then some (Int64.ofNat n) else none

/-- One range of a range field. -/
def ofText? (t : Text) : Option RangeSpec :=
  match cut '-' t with
  | none => none
  | some ([], n) => (position? n).map fun n => ⟨-n, -1⟩
  | some (a, []) => (position? a).map fun a => ⟨a, -1⟩
  | some (a, b) => do
    let a ← position? a
    let b ← position? b
    some ⟨a, b⟩

/-- The texts between the commas of a range field, without the blanks after the commas and
without empty ones. -/
def pieces (t : Text) : List Text :=
  ((t.splitOn ',').map trimStart).filter fun p => !p.isEmpty

/-- The ranges of a range field in the unit of bytes. An empty list is possible. -/
def parse? (value : Text) : Option (List RangeSpec) :=
  match after? "bytes=" (trim value) with
  | none => none
  | some rest => if rest.contains '\n' then none else (pieces (trim rest)).mapM ofText?

/-! ### Ranges of a file -/

/-- The position that one end of a range denotes in a file of `size` bytes. -/
def resolve (size x : Int64) : Int64 := if x < 0 then size + x else x

/-- The part of a file of `size` bytes that a range denotes. An end beyond the file is taken
back to its last byte. -/
def span? (spec : RangeSpec) (size : Nat) : Option Span :=
  if size < 0x8000000000000000 then
    let n := Int64.ofNat size
    let first := resolve n spec.first
    if first < 0 ∨ n ≤ first then none
    else
      let asked := resolve n spec.last
      let last := if asked ≤ n - 1 then asked else n - 1
      if last < first then none
      else some ⟨first.toInt.toNat, last.toInt.toNat⟩
  else none

end RangeSpec

end Webroot.Http
