import Webroot.Http.EntityTag
import Webroot.Proofs.Text.Basic

/-!
# Entity tags tell files apart

The three numbers of a tag are written in hexadecimal with hyphens between them. A hexadecimal
numeral is read back (`readHex_hex`) and holds no hyphen, so the tag gives back all three numbers.
The second of the last change is written as a 64-bit word; seconds that fit in one are told apart
whatever their sign.

Main statement: `entityTag_inj`.
-/

namespace Webroot.Http

open Text

/-! ### Hexadecimal numerals -/

/-- The hexadecimal digits in lower case. -/
def hexDigits : Text := "0123456789abcdef"

/-- The number that hexadecimal digits in lower case denote. -/
def readHex (t : Text) : Nat :=
  t.foldl (fun n c => 16 * n + hexDigits.idxOf c) 0

theorem readHex_append_singleton (t : Text) (c : Char) :
    readHex (t ++ [c]) = 16 * readHex t + hexDigits.idxOf c := by
  simp [readHex]

theorem idxOf_digitChar {d : Nat} (hd : d < 16) :
    hexDigits.idxOf (Nat.digitChar d) = d := by
  have hall : ∀ d < 16, hexDigits.idxOf (Nat.digitChar d) = d := by decide
  exact hall d hd

/-- A numeral is its last digit behind the numeral of the rest. -/
theorem hex_eq (n : Nat) :
    hex n = if n < 16 then [Nat.digitChar n] else hex (n / 16) ++ [Nat.digitChar (n % 16)] :=
  Nat.toDigits_eq_if (by decide)

/-- Reading a hexadecimal numeral gives its number. -/
theorem readHex_hex (n : Nat) : readHex (hex n) = n := by
  induction n using Nat.strongRecOn with
  | ind n ih =>
    rw [hex_eq]
    split
    · rename_i hlt
      simpa [readHex] using idxOf_digitChar hlt
    · rename_i hge
      rw [readHex_append_singleton, ih (n / 16) (by omega), idxOf_digitChar (by omega)]
      omega

theorem hex_injective {m n : Nat} (h : hex m = hex n) : m = n := by
  rw [← readHex_hex m, h, readHex_hex]

/-- A numeral holds nothing but hexadecimal digits. -/
theorem mem_digits_of_mem_hex {n : Nat} {c : Char} (h : c ∈ hex n) :
    c ∈ hexDigits := by
  have hdigit : ∀ d < 16, Nat.digitChar d ∈ hexDigits := by decide
  induction n using Nat.strongRecOn with
  | ind n ih =>
    rw [hex_eq] at h
    split at h
    · rename_i hlt
      rw [List.mem_singleton.mp h]
      exact hdigit n hlt
    · rename_i hge
      rcases List.mem_append.mp h with h | h
      · exact ih (n / 16) (by omega) h
      · rw [List.mem_singleton.mp h]
        exact hdigit (n % 16) (by omega)

theorem not_mem_hex {c : Char} (hc : c ∉ hexDigits) (n : Nat) : c ∉ hex n :=
  fun h => hc (mem_digits_of_mem_hex h)

/-! ### Tags -/

/-- What stands between the quotes of a tag. -/
def tagText (serial size : Nat) (changed : Int) : Text :=
  hex serial ++ '-' :: (hex size ++ '-' :: hexWord changed)

theorem entityTag_eq (serial size : Nat) (changed : Int) :
    entityTag serial size changed = '"' :: (tagText serial size changed ++ ['"']) := by
  simp [entityTag, tagText]

/-- A tag holds hexadecimal digits and hyphens between its quotes. -/
theorem not_mem_tagText {c : Char} (hc : c ∉ hexDigits) (hdash : c ≠ '-')
    (serial size : Nat) (changed : Int) : c ∉ tagText serial size changed := by
  have hhex := not_mem_hex hc
  simp [tagText, hexWord, hhex, hdash]

/-- Seconds that fit in a 64-bit word are told apart. -/
theorem hexWord_inj {i j : Int} (hi : -0x8000000000000000 ≤ i ∧ i < 0x8000000000000000)
    (hj : -0x8000000000000000 ≤ j ∧ j < 0x8000000000000000) (h : hexWord i = hexWord j) :
    i = j := by
  have hword := hex_injective h
  omega

/-- **Tags** are equal only for files with the same serial number, size and second of the last
change. -/
theorem entityTag_inj {serial size serial' size' : Nat} {changed changed' : Int}
    (hc : -0x8000000000000000 ≤ changed ∧ changed < 0x8000000000000000)
    (hc' : -0x8000000000000000 ≤ changed' ∧ changed' < 0x8000000000000000) :
    entityTag serial size changed = entityTag serial' size' changed' ↔
      serial = serial' ∧ size = size' ∧ changed = changed' := by
  constructor
  · intro h
    rw [entityTag_eq, entityTag_eq, List.cons.injEq] at h
    have htext : tagText serial size changed = tagText serial' size' changed' :=
      List.append_cancel_right h.2
    -- the first hyphen ends the serial number, and the next one the size
    have hcut := congrArg (cut '-') htext
    have hdash := not_mem_hex (c := '-') (by decide)
    rw [tagText, tagText, cut_append_cons (hdash _), cut_append_cons (hdash _), Option.some.injEq,
      Prod.mk.injEq] at hcut
    obtain ⟨hserial, hrest⟩ := hcut
    have hcut := congrArg (cut '-') hrest
    rw [cut_append_cons (hdash _), cut_append_cons (hdash _), Option.some.injEq,
      Prod.mk.injEq] at hcut
    obtain ⟨hsize, hword⟩ := hcut
    exact ⟨hex_injective hserial, hex_injective hsize, hexWord_inj hc hc' hword⟩
  · rintro ⟨rfl, rfl, rfl⟩
    rfl

end Webroot.Http
