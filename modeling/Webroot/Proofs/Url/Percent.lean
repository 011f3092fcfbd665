import Webroot.Proofs.Text.Utf8
import Webroot.Url.Percent

/-!
# Percent encoding and slashes

Slashes are neither made nor lost at the front of a path: a target that starts with a slash denotes
a path that starts with one (`unescape_slash`), and the written form of a path starts with a slash
exactly when the path does (`head?_escapePath_eq_slash`). The slashes *after* the first one are not
as safe: `%2F` denotes a slash too, so a path may start with two where its target has one.
-/

namespace Webroot.Url

open Text

/-! ### Reading -/

theorem encode_slash (t : Text) : Utf8.encode ('/' :: t) = 47 :: Utf8.encode t := rfl

/-- A slash stands for itself. -/
theorem decodeOctets_slash (form : Bool) (o : Octets) :
    decodeOctets form (47 :: o) = 47 :: decodeOctets form o := by
  have hplain : escaped? (47 :: o) = none := by
    rw [escaped?.eq_def]
    split
    · rename_i hcons
      obtain ⟨rfl, -⟩ := List.cons.inj hcons
      rfl
    · rfl
  have hform : plainOctet form 47 = 47 := by
    cases form <;> rfl
  rw [decodeOctets, decodeAfter, hplain, hform]
  rfl

/-- A text that starts with a slash denotes one that starts with a slash. -/
theorem unescape_slash (t : Text) : unescape ('/' :: t) = '/' :: unescape t := by
  have hpieces : ∀ o, Utf8.pieces (47 :: o) = some '/' :: Utf8.pieces o :=
    Utf8.pieces_encodeChar_append '/'
  rw [unescape, encode_slash, decodeOctets_slash, Utf8.decodeLossy, hpieces]
  rfl

/-! ### Writing -/

theorem escapePath_cons (c : Char) (t : Text) :
    escapePath (c :: t) = (Utf8.encodeChar c).flatMap escapeOctet ++ escapePath t := by
  rw [escapePath, Utf8.encode_cons, List.flatMap_append]
  rfl

theorem escapePath_slash (t : Text) : escapePath ('/' :: t) = '/' :: escapePath t := by
  have hslash : (Utf8.encodeChar '/').flatMap escapeOctet = ['/'] := by decide +kernel
  rw [escapePath_cons, hslash]
  rfl

theorem escapeOctet_ne_nil (b : UInt8) : escapeOctet b ≠ [] := by
  rw [escapeOctet]
  split <;> exact List.cons_ne_nil _ _

/-- Only the octet of a slash is written with a slash in front. -/
theorem eq_of_head?_escapeOctet {b : UInt8} (h : (escapeOctet b).head? = some '/') : b = 47 := by
  have hall : ∀ n < 256, (escapeOctet (UInt8.ofNat n)).head? = some '/' → n = 47 := by
    decide +kernel
  have hnat : b.toNat = 47 := hall b.toNat b.toNat_lt (by rwa [UInt8.ofNat_toNat])
  exact UInt8.toNat_inj.mp hnat

theorem escapePath_ne_nil {t : Text} (h : t ≠ []) : escapePath t ≠ [] := by
  obtain ⟨c, t, rfl⟩ := List.exists_cons_of_ne_nil h
  obtain ⟨b, o, hoctets⟩ := List.exists_cons_of_ne_nil (Utf8.encodeChar_ne_nil c)
  rw [escapePath_cons, hoctets, List.flatMap_cons]
  simp [escapeOctet_ne_nil]

/-- The written form of a path starts with a slash exactly when the path does. -/
theorem head?_escapePath_eq_slash (t : Text) :
    (escapePath t).head? = some '/' ↔ t.head? = some '/' := by
  cases t with
  | nil => rfl
  | cons c t =>
    obtain ⟨b, o, hoctets⟩ := List.exists_cons_of_ne_nil (Utf8.encodeChar_ne_nil c)
    obtain ⟨d, ds, hwritten⟩ := List.exists_cons_of_ne_nil (escapeOctet_ne_nil b)
    have hhead : (escapePath (c :: t)).head? = (escapeOctet b).head? := by
      rw [escapePath_cons, hoctets, List.flatMap_cons, hwritten]
      rfl
    rw [hhead, List.head?_cons, Option.some.injEq]
    constructor
    · intro hslash
      obtain rfl := eq_of_head?_escapeOctet hslash
      have hmem : (47 : UInt8) ∈ Utf8.encode [c] := by
        simp [Utf8.encode, hoctets]
      exact (List.mem_singleton.mp (Utf8.mem_of_mem_encode (c := '/') (by decide) hmem)).symm
    · rintro rfl
      obtain ⟨rfl, -⟩ := List.cons.inj (hoctets.symm.trans (Utf8.encodeChar_of_lt (by decide)))
      rfl

end Webroot.Url
