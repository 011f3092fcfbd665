import Webroot.Proofs.Url.RoundTrip

/-!
# What escaped paths are made of

The written form of a text holds letters, digits, the punctuation of paths, and whole escapes with
capital digits (`EscapedPath`), whatever the text is. No escape is cut off at its end, so whatever
stands behind it is read as if it stood alone.

Main statement: `escapePath_written_and_read`.
-/

namespace Webroot.Url

open Text

/-- A digit of the two behind a percent sign, as it is written: the letters are capitals. -/
def isCapitalHexDigit (c : Char) : Bool := ("0123456789ABCDEF" : Text).contains c

/-- The text of an **escaped path**: characters that need no escape, and whole escapes. -/
inductive EscapedPath : Text → Prop
  | nil : EscapedPath []
  | plain {c : Char} {t : Text} : c.isAlphanum = true ∨ c ∈ ("-._~!$'()*+,=:@/" : Text) →
      EscapedPath t → EscapedPath (c :: t)
  | escape {h l : Char} {t : Text} : isCapitalHexDigit h = true → isCapitalHexDigit l = true →
      EscapedPath t → EscapedPath ('%' :: h :: l :: t)

theorem EscapedPath.append {s t : Text} (hs : EscapedPath s) (ht : EscapedPath t) :
    EscapedPath (s ++ t) := by
  induction hs with
  | nil => exact ht
  | plain hc _ ih => exact .plain hc ih
  | escape hh hl _ ih => exact .escape hh hl ih

theorem isCapitalHexDigit_hexDigit {v : Nat} (hv : v < 16) :
    isCapitalHexDigit (hexDigit v) = true := by
  have hall : ∀ v < 16, isCapitalHexDigit (hexDigit v) = true := by decide
  exact hall v hv

/-- An octet is written as one character that needs no escape, or as an escape. -/
theorem escapedPath_escapeOctet (b : UInt8) : EscapedPath (escapeOctet b) := by
  have hlt : b.toNat < 256 := b.toNat_lt
  rw [escapeOctet]
  split
  · rename_i hplain
    have hchar := Bool.or_eq_true_iff.mp (Bool.and_eq_true_iff.mp hplain).2
    exact .plain (hchar.imp_right List.contains_iff_mem.mp) .nil
  · exact .escape (isCapitalHexDigit_hexDigit (by omega)) (isCapitalHexDigit_hexDigit (by omega))
      .nil

theorem escapedPath_escapePath (t : Text) : EscapedPath (escapePath t) := by
  rw [escapePath]
  induction Utf8.encode t with
  | nil => exact .nil
  | cons b o ih => exact (escapedPath_escapeOctet b).append ih

/-- **Escaped paths.** Every text is written with letters, digits, the punctuation of paths and
whole escapes. What is written is read as the text, and what stands behind it as what it is
alone. -/
theorem escapePath_written_and_read (s t : Text) :
    EscapedPath (escapePath s) ∧ unescape (escapePath s) = s ∧
      unescape (escapePath s ++ t) = s ++ unescape t :=
  ⟨escapedPath_escapePath s, unescape_escapePath s, unescape_escapePath_append s t⟩

end Webroot.Url
