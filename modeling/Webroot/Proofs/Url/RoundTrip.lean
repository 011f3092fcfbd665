import Mathlib.Data.List.Basic
import Webroot.Proofs.Url.Percent

/-!
# Percent encoding, written and read

Reading undoes writing, whatever follows (`unescape_escapePath_append`): each octet that was written
is read as that octet, and the octets of a text as that text. Reading can be done piece by piece
where a slash stands between the pieces (`unescape_append_slash`), for a slash is neither part of an
escape nor of a longer character.

What is written holds the punctuation of the text and no other (`mem_escapePath_iff`).
-/

namespace Webroot.Url

open Text

/-! ### Octets, read -/

theorem escaped?_of_ne {b : UInt8} (h : b ≠ 37) (o : Octets) : escaped? (b :: o) = none := by
  rw [escaped?.eq_def]
  split
  · rename_i hcons
    obtain ⟨rfl, -⟩ := List.cons.inj hcons
    exact if_neg h
  · rfl

/-- The octets that are written for one octet are read as that octet. -/
theorem decodeOctets_escapeOctet (b : UInt8) (o : Octets) :
    decodeOctets false (Utf8.encode (escapeOctet b) ++ o) = b :: decodeOctets false o := by
  have hall : ∀ n < 256,
      (Utf8.encode (escapeOctet (UInt8.ofNat n)) = [UInt8.ofNat n] ∧ UInt8.ofNat n ≠ 37) ∨
        (Utf8.encode (escapeOctet (UInt8.ofNat n))).length = 3 ∧
          escaped? (Utf8.encode (escapeOctet (UInt8.ofNat n))) = some (UInt8.ofNat n) := by
    decide +kernel
  have hoctet := hall b.toNat b.toNat_lt
  rw [UInt8.ofNat_toNat] at hoctet
  rcases hoctet with ⟨hself, hne⟩ | ⟨hthree, hescaped⟩
  · rw [hself, List.singleton_append, decodeOctets, decodeAfter, escaped?_of_ne hne]
    rfl
  · obtain ⟨p, h, l, hwritten⟩ := List.length_eq_three.mp hthree
    rw [hwritten] at hescaped ⊢
    have hmore : escaped? (p :: h :: l :: o) = some b := hescaped
    rw [List.cons_append, List.cons_append, List.cons_append, List.nil_append, decodeOctets,
      decodeAfter, hmore]
    rfl

/-- The written form of octets is read as these octets. -/
theorem decodeOctets_flatMap_escapeOctet (os o : Octets) :
    decodeOctets false (Utf8.encode (os.flatMap escapeOctet) ++ o) =
      os ++ decodeOctets false o := by
  induction os with
  | nil => rfl
  | cons b os ih =>
    rw [List.flatMap_cons, Utf8.encode_append, List.append_assoc, decodeOctets_escapeOctet, ih]
    rfl

/-! ### Texts, read -/

/-- **Reading undoes writing**, whatever follows. -/
theorem unescape_escapePath_append (s t : Text) :
    unescape (escapePath s ++ t) = s ++ unescape t := by
  rw [unescape, Utf8.encode_append, escapePath, decodeOctets_flatMap_escapeOctet,
    Utf8.decodeLossy, Utf8.pieces_encode_append, List.map_append, List.map_map]
  exact congrArg (· ++ unescape t) (List.map_id s)

theorem unescape_escapePath (t : Text) : unescape (escapePath t) = t := by
  have hread := unescape_escapePath_append t []
  rwa [List.append_nil, show unescape [] = [] from rfl, List.append_nil] at hread

theorem escapePath_injective : Function.Injective escapePath :=
  Function.LeftInverse.injective unescape_escapePath

/-! ### Reading piece by piece -/

/-- No escape reaches beyond a slash: with a slash behind them two octets are the digits of an
escape exactly when they are without it. -/
theorem escaped?_append_slash (b : UInt8) (o o' : Octets) :
    escaped? (b :: (o ++ 47 :: o')) = escaped? (b :: o) := by
  match o with
  | [] => cases o' <;> simp [escaped?, hexValue?]
  | [h] => cases hexValue? h <;> simp [escaped?, hexValue?]
  | _ :: _ :: _ => rfl

theorem two_le_length_of_escaped? {b v : UInt8} {o : Octets} (h : escaped? (b :: o) = some v) :
    2 ≤ o.length := by
  match o with
  | [] => simp [escaped?] at h
  | [_] => simp [escaped?] at h
  | _ :: _ :: _ => simp

theorem decodeAfter_append_slash (form : Bool) (o o' : Octets) {digits : Nat}
    (hdigits : digits ≤ o.length) :
    decodeAfter form digits (o ++ 47 :: o') =
      decodeAfter form digits o ++ decodeOctets form (47 :: o') := by
  induction o generalizing digits with
  | nil =>
    obtain rfl : digits = 0 := Nat.le_zero.mp hdigits
    rfl
  | cons b o ih =>
    cases digits with
    | succ n => exact ih (Nat.le_of_succ_le_succ hdigits)
    | zero =>
      rw [List.cons_append, decodeAfter, decodeAfter, escaped?_append_slash]
      cases hescaped : escaped? (b :: o) with
      | none => exact congrArg (plainOctet form b :: ·) (ih (Nat.zero_le _))
      | some v => exact congrArg (v :: ·) (ih (two_le_length_of_escaped? hescaped))

/-- A text is read piece by piece at a slash. -/
theorem unescape_append_slash (s t : Text) :
    unescape (s ++ '/' :: t) = unescape s ++ '/' :: unescape t := by
  rw [← unescape_slash, unescape, unescape, unescape, Utf8.encode_append, encode_slash,
    decodeOctets, decodeAfter_append_slash false _ _ (Nat.zero_le _), decodeOctets_slash,
    Utf8.decodeLossy, Utf8.pieces_append_ascii (by decide), List.map_append]
  rfl

/-! ### What is written -/

/-- A character that is written for no octet is not in what is written. -/
theorem not_mem_escapePath {c : Char} (hc : ∀ n < 256, c ∉ escapeOctet (UInt8.ofNat n))
    (t : Text) : c ∉ escapePath t := by
  intro h
  obtain ⟨b, -, hb⟩ := List.mem_flatMap.mp h
  exact hc b.toNat b.toNat_lt (by rwa [UInt8.ofNat_toNat])

/-- An octet that is written with a punctuation mark of paths is the octet of that mark. -/
theorem eq_of_mem_escapeOctet {c : Char} (hc : c ∈ pathPunctuation) {b : UInt8}
    (h : c ∈ escapeOctet b) : b = UInt8.ofNat c.toNat := by
  have hhex : ∀ v < 16, hexDigit v ∉ pathPunctuation := by decide
  have hchar : ∀ n < 0x80, (Char.ofNat n).toNat = n := by decide
  have hlt : b.toNat < 256 := b.toNat_lt
  rw [escapeOctet] at h
  split at h
  · rename_i hplain
    have hascii : b.toNat < 0x80 := by
      simp only [isPathOctet, Bool.and_eq_true, decide_eq_true_eq] at hplain
      exact UInt8.lt_iff_toNat_lt.mp hplain.1
    rw [List.mem_singleton.mp h, hchar _ hascii, UInt8.ofNat_toNat]
  · -- neither the percent sign nor a hexadecimal digit is such a mark
    rcases List.mem_cons.mp h with rfl | h
    · exact absurd hc (by decide)
    · rcases List.mem_cons.mp h with rfl | h
      · exact absurd hc (hhex _ (by omega))
      · obtain rfl := List.mem_singleton.mp h
        exact absurd hc (hhex _ (by omega))

/-- The punctuation of a path is written as it is, and nothing else is written with it. -/
theorem mem_escapePath_iff {c : Char} (hc : c ∈ pathPunctuation) (t : Text) :
    c ∈ escapePath t ↔ c ∈ t := by
  have hself : (pathPunctuation.all fun c =>
      c.toNat < 0x80 ∧ escapeOctet (UInt8.ofNat c.toNat) = [c]) = true := by
    decide +kernel
  obtain ⟨hlt, hwritten⟩ := of_decide_eq_true (List.all_eq_true.mp hself c hc)
  constructor
  · intro h
    obtain ⟨b, hb, hmem⟩ := List.mem_flatMap.mp h
    obtain rfl := eq_of_mem_escapeOctet hc hmem
    exact Utf8.mem_of_mem_encode hlt hb
  · intro h
    have hoctet : UInt8.ofNat c.toNat ∈ Utf8.encode t :=
      List.mem_flatMap.mpr
        ⟨c, h, by rw [Utf8.encodeChar_of_lt hlt]; exact List.mem_singleton_self _⟩
    exact List.mem_flatMap.mpr ⟨_, hoctet, by rw [hwritten]; exact List.mem_singleton_self _⟩

end Webroot.Url
