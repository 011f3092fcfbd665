import Webroot.Text.Numeral
import Webroot.Text.Utf8

/-!
# Percent encoding

`escapePath` writes a text as the path of an address: each octet of its UTF-8 form stands for
itself where a path may hold it and is written as `%` and two hexadecimal digits otherwise.
`unescape` reads such texts back. It accepts every text: a `%` without two hexadecimal digits
after it stands for itself, and ill-formed octets become U+FFFD.
-/

namespace Webroot.Url

open Text

/-- The punctuation that a path may hold as it is. -/
def pathPunctuation : Text := "-._~!$'()*+,=:@/"

/-- Whether an octet may stand in a path as it is. -/
def isPathOctet (b : UInt8) : Bool :=
  let c := Char.ofNat b.toNat
  b < 128 && (c.isAlphanum || pathPunctuation.contains c)

/-- The written form of one octet. -/
def escapeOctet (b : UInt8) : Text :=
  if isPathOctet b then [Char.ofNat b.toNat]
  else ['%', hexDigit (b.toNat / 16), hexDigit (b.toNat % 16)]

/-- A text as the path of an address. -/
def escapePath (t : Text) : Text := (Utf8.encode t).flatMap escapeOctet

/-- The octet that a `%` and two hexadecimal digits at the front stand for. -/
def escaped? : Octets → Option UInt8
  | p :: h :: l :: _ =>
    if p = 37 then do
      let h ← hexValue? h
      let l ← hexValue? l
      some (h * 16 + l)
    else none
  | _ => none

/-- What an octet outside an escape stands for. With `form`, a plus sign stands for a space. -/
def plainOctet (form : Bool) (b : UInt8) : UInt8 := if form ∧ b = 43 then 32 else b

/-- The octets that percent-encoded octets stand for, after `digits` octets that belong to an
escape already read. -/
def decodeAfter (form : Bool) : (digits : Nat) → Octets → Octets
  | _, [] => []
  | n + 1, _ :: r => decodeAfter form n r
  | 0, b :: r =>
    match escaped? (b :: r) with
    | some v => v :: decodeAfter form 2 r
    | none => plainOctet form b :: decodeAfter form 0 r

/-- The octets that percent-encoded octets stand for. -/
def decodeOctets (form : Bool) (o : Octets) : Octets := decodeAfter form 0 o

/-- The text that a percent-encoded text stands for. -/
def unescape (t : Text) : Text := Utf8.decodeLossy (decodeOctets false (Utf8.encode t))

/-- The text that a percent-encoded text of a form stands for: a plus sign is a space. -/
def unescapeForm (t : Text) : Text := Utf8.decodeLossy (decodeOctets true (Utf8.encode t))

end Webroot.Url
