import Webroot.Text.Basic

/-!
# UTF-8

Encoding gives each character its one to four octets. Decoding is a machine that takes one octet
at a time: between characters it is `idle`, inside one it knows how many octets are still owed
and the range of the next. An octet outside that range ends the unfinished piece as **one**
ill-formed piece and is then read again from `idle`, so every maximal ill-formed piece counts
once. `decode?` refuses texts with an ill-formed piece, `decodeLossy` puts U+FFFD in its place.
-/

namespace Webroot.Utf8

/-! ### Encoding -/

/-- The octets of one character. -/
def encodeChar (c : Char) : Octets :=
  let n := c.toNat
  if n < 0x80 then [UInt8.ofNat n]
  else if n < 0x800 then [UInt8.ofNat (0xC0 + n / 0x40), UInt8.ofNat (0x80 + n % 0x40)]
  else if n < 0x10000 then
    [UInt8.ofNat (0xE0 + n / 0x1000), UInt8.ofNat (0x80 + n / 0x40 % 0x40),
     UInt8.ofNat (0x80 + n % 0x40)]
  else
    [UInt8.ofNat (0xF0 + n / 0x40000), UInt8.ofNat (0x80 + n / 0x1000 % 0x40),
     UInt8.ofNat (0x80 + n / 0x40 % 0x40), UInt8.ofNat (0x80 + n % 0x40)]

/-- The octets of a text. -/
def encode (t : Text) : Octets := t.flatMap encodeChar

/-! ### Decoding -/

/-- Where the decoder stands between two octets. -/
inductive State where
  /-- Between characters. -/
  | idle
  /-- Inside a character: `owed + 1` octets are missing, the next one lies in `lo … hi`, and the
  octets so far hold the bits `bits`. -/
  | within (owed : Nat) (lo hi : Nat) (bits : Nat)
  deriving DecidableEq, Repr

/-- A decoded piece: a character, or `none` for an ill-formed piece. -/
abbrev Piece := Option Char

/-- What an octet yields when the decoder is between characters. -/
def start (b : Nat) : List Piece × State :=
  if b < 0x80 then ([some (Char.ofNat b)], .idle)
  else if b < 0xC2 then ([none], .idle)
  else if b < 0xE0 then ([], .within 0 0x80 0xBF (b - 0xC0))
  else if b = 0xE0 then ([], .within 1 0xA0 0xBF 0)
  else if b = 0xED then ([], .within 1 0x80 0x9F 0xD)
  else if b < 0xF0 then ([], .within 1 0x80 0xBF (b - 0xE0))
  else if b = 0xF0 then ([], .within 2 0x90 0xBF 0)
  else if b < 0xF4 then ([], .within 2 0x80 0xBF (b - 0xF0))
  else if b = 0xF4 then ([], .within 2 0x80 0x8F 4)
  else ([none], .idle)

/-- What the next octet yields, and where it leaves the decoder. -/
def step : State → Nat → List Piece × State
  | .idle, b => start b
  | .within owed lo hi bits, b =>
    if lo ≤ b ∧ b ≤ hi then
      let bits := bits * 0x40 + (b - 0x80)
      match owed with
      | 0 => ([some (Char.ofNat bits)], .idle)
      | owed + 1 => ([], .within owed 0x80 0xBF bits)
    else
      let (pieces, state) := start b
      (none :: pieces, state)

/-- The pieces of the octets read from a state on. An unfinished character at the end is one
ill-formed piece. -/
def piecesFrom : State → Octets → List Piece
  | .idle, [] => []
  | .within .., [] => [none]
  | state, b :: rest =>
    let (pieces, state') := step state b.toNat
    pieces ++ piecesFrom state' rest

/-- The pieces of octets, in order. -/
def pieces (o : Octets) : List Piece := piecesFrom .idle o

/-- The text with these octets, if they are well-formed. -/
def decode? (o : Octets) : Option Text := (pieces o).mapM id

/-- The text of the octets with U+FFFD for every ill-formed piece. -/
def decodeLossy (o : Octets) : Text := (pieces o).map (·.getD '\uFFFD')

end Webroot.Utf8
