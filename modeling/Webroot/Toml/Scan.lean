import Webroot.Text.Numeral
import Webroot.Text.Reader

/-!
# Pieces of TOML

Blanks, comments, line ends, strings and keys.
-/

namespace Webroot.Toml

open Text

/-! ### Between values -/

/-- A blank inside a line. -/
def isSpace (c : Char) : Bool := c == ' ' || c == '\t'

/-- The text after the blanks at its front. -/
def skipSpaces (t : Text) : Text := t.dropWhile isSpace

/-- Whether a character may stand in a comment or a string as it is: a tab or no control. -/
def isPlain (c : Char) : Bool := c == '\t' || (0x20 ≤ c.toNat && c.toNat ≠ 0x7F)

/-- A line end. -/
def newline : Reader Unit := fun t =>
  match t with
  | '\n' :: r => some ((), r)
  | '\r' :: '\n' :: r => some ((), r)
  | _ => none

/-- The text after the comment at its front, if there is one. -/
def skipComment (t : Text) : Text :=
  match t with
  | '#' :: r => r.dropWhile isPlain
  | t => t

/-- The end of a line, after blanks and a comment: a line end or the end of the text. -/
def lineEnd : Reader Unit := fun t =>
  match skipComment (skipSpaces t) with
  | [] => some ((), [])
  | r => newline r

/-- Blanks, a line end, or a comment with its line end. -/
def gap : Reader Unit := fun t =>
  match t with
  | [] => none
  | c :: r =>
    if isSpace c then some ((), r)
    else if c = '#' then newline (skipComment t)
    else newline t

/-- The text after all blanks, line ends and comments at its front. -/
def skipGaps (t : Text) : Text := (Reader.many gap t.length t).2

/-! ### Strings -/

/-- The value of `n` hexadecimal digits. -/
def hexDigits (n : Nat) : Reader Nat := fun t =>
  let digits := t.take n
  let values := digits.mapM fun c =>
    if c.toNat < 0x80 then hexValue? (UInt8.ofNat c.toNat) else none
  if digits.length = n then
    values.map fun vs => (vs.foldl (fun a v => a * 16 + v.toNat) 0, t.drop n)
  else none

/-- The character with a code point given by `n` hexadecimal digits. -/
def codePoint (n : Nat) : Reader Char := fun t => do
  let (v, r) ← hexDigits n t
  if v.isValidChar then some (Char.ofNat v, r) else none

/-- The character that an escape stands for, after its backslash. -/
def escape : Reader Char := fun t =>
  match t with
  | 'b' :: r => some ('\x08', r)
  | 't' :: r => some ('\t', r)
  | 'n' :: r => some ('\n', r)
  | 'f' :: r => some ('\x0c', r)
  | 'r' :: r => some ('\r', r)
  | '"' :: r => some ('"', r)
  | '\\' :: r => some ('\\', r)
  | 'u' :: r => codePoint 4 r
  | 'U' :: r => codePoint 8 r
  | _ => none

/-- The rest of a string on one line after its opening quote. With `escapes`, a backslash begins
an escape. Each step reads a character at least. -/
def lineStringRest (quote : Char) (escapes : Bool) : (fuel : Nat) → Reader Text
  | 0, _ => none
  | _, [] => none
  | fuel + 1, c :: r =>
    if c = quote then some ([], r)
    else if escapes ∧ c = '\\' then do
      let (e, r) ← escape r
      let (s, rest) ← lineStringRest quote escapes fuel r
      some (e :: s, rest)
    else if isPlain c then do
      let (s, rest) ← lineStringRest quote escapes fuel r
      some (c :: s, rest)
    else none

/-- A string on one line: between double quotes with escapes, or between apostrophes without. -/
def lineString : Reader Text := fun t =>
  match t with
  | '"' :: r => lineStringRest '"' true t.length r
  | '\'' :: r => lineStringRest '\'' false t.length r
  | _ => none

/-- What follows a backslash at the end of a line: the text after all blanks and line ends. -/
def continuation? (t : Text) : Option Text :=
  (newline (skipSpaces t)).map fun (_, r) =>
    (Reader.many (fun s => match s with
      | c :: r => if isSpace c then some ((), r) else newline s
      | [] => none) r.length r).2

/-- The rest of a string over several lines after its opening quotes. It ends at three quotes; up
to two more before them belong to it. Each step reads a character at least. -/
def blockStringRest (quote : Char) (escapes : Bool) : (fuel : Nat) → Reader Text
  | 0, _ => none
  | _, [] => none
  | fuel + 1, c :: r =>
    if c = quote then
      let count := ((c :: r).takeWhile (· == quote)).length
      if 5 < count then none
      else if 3 ≤ count then some (List.replicate (count - 3) quote, (c :: r).drop count)
      else do
        let (s, rest) ← blockStringRest quote escapes fuel r
        some (c :: s, rest)
    else if escapes ∧ c = '\\' then
      match continuation? r with
      | some r => blockStringRest quote escapes fuel r
      | none => do
        let (e, r) ← escape r
        let (s, rest) ← blockStringRest quote escapes fuel r
        some (e :: s, rest)
    else
      match newline (c :: r) with
      | some (_, r) => do
        let (s, rest) ← blockStringRest quote escapes fuel r
        some ('\n' :: s, rest)
      | none =>
        if isPlain c then do
          let (s, rest) ← blockStringRest quote escapes fuel r
          some (c :: s, rest)
        else none

/-- A string over several lines; a line end right after the opening quotes does not count. -/
def blockString (quote : Char) (escapes : Bool) : Reader Text := fun t => do
  let r ← after? [quote, quote, quote] t
  let r := match newline r with
    | some (_, r) => r
    | none => r
  blockStringRest quote escapes t.length r

/-- A string of any of the four forms. -/
def string : Reader Text := fun t =>
  if (after? "\"\"\"" t).isSome then blockString '"' true t
  else if (after? "'''" t).isSome then blockString '\'' false t
  else lineString t

/-! ### Keys -/

/-- Whether a character may stand in a bare key. -/
def isKeyChar (c : Char) : Bool := c.isAlphanum || c == '_' || c == '-'

/-- One part of a key: a bare word or a string on one line. -/
def keyPart : Reader Text := fun t =>
  let t := skipSpaces t
  let word := t.takeWhile isKeyChar
  let part := if word.isEmpty then lineString t else some (word, t.dropWhile isKeyChar)
  part.map fun (k, r) => (k, skipSpaces r)

/-- The most parts of a dotted key, and the most brackets open at one time. -/
def maxDepth : Nat := 79

/-- A key: its parts before the last one, and the last one. -/
def key : Reader (List Text × Text) := fun t => do
  let (parts, r) ← Reader.separated (Reader.exactly ['.']) keyPart t
  let last ← parts.getLast?
  if parts.length ≤ maxDepth then some ((parts.dropLast, last), r) else none

end Webroot.Toml
