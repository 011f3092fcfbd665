import Webroot.Proofs.Text.Utf8

/-!
# Octets that need not be a text

Any octets can be read as a text with U+FFFD for every piece that is ill-formed. The octets of a
text are read as that text (`decodeLossy_encode`). Of other octets less is known, but reading makes
up no ASCII: a character of ASCII is read only where its octet stands (`mem_of_mem_decodeLossy`),
and a text of ASCII only from its own octets (`eq_encode_of_decodeLossy`).

The second octet of a longer character is in a range that the first one asks for, so that what comes
out in the end is a character beyond ASCII. The decoder keeps this in every state it comes to
(`State.BeyondAscii`).
-/

namespace Webroot.Utf8

/-- The octets of a text are read as that text. -/
theorem decodeLossy_encode (t : Text) : decodeLossy (encode t) = t := by
  have hpieces := pieces_encode_append t []
  rw [List.append_nil, show pieces [] = [] from rfl, List.append_nil] at hpieces
  rw [decodeLossy, hpieces, List.map_map]
  exact List.map_id t

/-! ### Characters beyond ASCII -/

/-- A scalar value is the number of its character. -/
theorem toNat_charOfNat {n : Nat} (h : n.isValidChar) : (Char.ofNat n).toNat = n := by
  rw [Char.ofNat, dif_pos h]
  rfl

/-- Whatever octets complete a character of which `owed + 1` are missing, it is one
**beyond ASCII**: the octets so far hold the bits `bits`, and the next one lies in `lo … hi`. -/
def BeyondAscii : (owed lo hi bits : Nat) → Prop
  | 0, lo, hi, bits => ∀ b, lo ≤ b → b ≤ hi →
    0x80 ≤ bits * 0x40 + (b - 0x80) ∧ (bits * 0x40 + (b - 0x80)).isValidChar
  | owed + 1, lo, hi, bits => ∀ b, lo ≤ b → b ≤ hi →
    BeyondAscii owed 0x80 0xBF (bits * 0x40 + (b - 0x80))

/-- The decoder completes no character of ASCII when it stands inside a character. -/
def State.BeyondAscii : State → Prop
  | .idle => True
  | .within owed lo hi bits => Utf8.BeyondAscii owed lo hi bits

theorem beyondAscii_start {b : Nat} (hb : b < 0x100) : (start b).2.BeyondAscii := by
  simp only [start]
  -- by what the octet is: the ranges of the second octet keep out what is too small, too large or
  -- no scalar value
  split_ifs <;> simp only [State.BeyondAscii, Utf8.BeyondAscii, Nat.isValidChar] <;> intros <;>
    omega

theorem State.BeyondAscii.step {s : State} (h : s.BeyondAscii) {b : Nat} (hb : b < 0x100) :
    (step s b).2.BeyondAscii := by
  cases s with
  | idle => exact beyondAscii_start hb
  | within owed lo hi bits =>
    rw [Utf8.step]
    split_ifs with hrange
    · cases owed with
      | zero => exact trivial
      | succ owed => exact h b hrange.1 hrange.2
    · exact beyondAscii_start hb

/-- Between characters an octet yields nothing but its own character, if it is one of ASCII. -/
theorem eq_of_mem_start {b : Nat} {c : Char} (h : some c ∈ (start b).1) :
    b < 0x80 ∧ c = Char.ofNat b := by
  simp only [start] at h
  split_ifs at h with hascii <;> simp_all

/-- A character of ASCII is the one of the octet that yields it. -/
theorem State.BeyondAscii.eq_of_mem_step {s : State} (h : s.BeyondAscii) {b : Nat} {c : Char}
    (hc : c.toNat < 0x80) (hmem : some c ∈ (Utf8.step s b).1) : c.toNat = b := by
  have hvalue : ∀ n, n.isValidChar → c = Char.ofNat n → c.toNat = n := by
    rintro n hn rfl
    exact toNat_charOfNat hn
  have hstart : some c ∈ (start b).1 → c.toNat = b := by
    intro hs
    obtain ⟨hb, hchar⟩ := eq_of_mem_start hs
    exact hvalue b (.inl (by omega)) hchar
  cases s with
  | idle => exact hstart hmem
  | within owed lo hi bits =>
    rw [Utf8.step] at hmem
    split_ifs at hmem with hrange
    · cases owed with
      | zero =>
        obtain ⟨hbeyond, hvalid⟩ := h b hrange.1 hrange.2
        have hchar := hvalue _ hvalid (by simpa using hmem)
        omega
      | succ owed => simp at hmem
    · exact hstart (by simpa using hmem)

/-! ### Characters of ASCII -/

theorem mem_of_mem_piecesFrom {s : State} (hs : s.BeyondAscii) {c : Char} (hc : c.toNat < 0x80)
    {o : Octets} (h : some c ∈ piecesFrom s o) : UInt8.ofNat c.toNat ∈ o := by
  induction o generalizing s with
  | nil => cases s <;> simp [piecesFrom] at h
  | cons b o ih =>
    rw [piecesFrom_octet] at h
    rcases List.mem_append.mp h with hnow | hlater
    · rw [hs.eq_of_mem_step hc hnow, UInt8.ofNat_toNat]
      exact List.mem_cons_self
    · exact List.mem_cons_of_mem b (ih (hs.step b.toNat_lt) hlater)

/-- **No ASCII is made up.** A character of ASCII is read only where its octet stands. -/
theorem mem_of_mem_decodeLossy {c : Char} (hc : c.toNat < 0x80) {o : Octets}
    (h : c ∈ decodeLossy o) : UInt8.ofNat c.toNat ∈ o := by
  obtain ⟨piece, hpiece, hread⟩ := List.mem_map.mp h
  cases piece with
  | none =>
    obtain rfl : '\uFFFD' = c := hread
    exact absurd hc (by decide)
  | some d =>
    obtain rfl : d = c := hread
    exact mem_of_mem_piecesFrom (s := .idle) trivial hc hpiece

/-- An octet that yields nothing leaves the decoder inside a character. -/
theorem ne_idle_of_step_eq_nil {s : State} {b : Nat} (h : (step s b).1 = []) :
    (step s b).2 ≠ .idle := by
  have hstart : (start b).1 = [] → (start b).2 ≠ .idle := by
    simp only [start]
    split_ifs <;> simp
  cases s with
  | idle => exact hstart h
  | within owed lo hi bits =>
    rw [step] at h ⊢
    split_ifs at h ⊢
    cases owed with
    | zero => simp at h
    | succ owed => simp

theorem piecesFrom_ne_nil {s : State} {o : Octets} (h : s ≠ .idle ∨ o ≠ []) :
    piecesFrom s o ≠ [] := by
  induction o generalizing s with
  | nil =>
    cases s with
    | idle => simp at h
    | within => exact List.cons_ne_nil _ _
  | cons b o ih =>
    rw [piecesFrom_octet]
    intro hnil
    obtain ⟨hnow, hlater⟩ := List.append_eq_nil_iff.mp hnil
    exact ih (.inl (ne_idle_of_step_eq_nil hnow)) hlater

theorem decodeLossy_ne_nil {o : Octets} (h : o ≠ []) : decodeLossy o ≠ [] := by
  rw [decodeLossy, ne_eq, List.map_eq_nil_iff]
  exact piecesFrom_ne_nil (.inr h)

/-- An octet of ASCII is read on its own. -/
theorem decodeLossy_append_ascii {b : UInt8} (hb : b.toNat < 0x80) (o o' : Octets) :
    decodeLossy (o ++ b :: o') = decodeLossy o ++ Char.ofNat b.toNat :: decodeLossy o' := by
  have hone : pieces (b :: o') = some (Char.ofNat b.toNat) :: pieces o' := by
    rw [pieces, piecesFrom_octet, step, start, if_pos hb]
    rfl
  rw [decodeLossy, pieces_append_ascii hb, hone, List.map_append, List.map_cons]
  rfl

/-- **A text of ASCII** is read from its own octets only. -/
theorem eq_encode_of_decodeLossy {t : Text} (ht : ∀ c ∈ t, c.toNat < 0x80) {o : Octets}
    (h : decodeLossy o = t) : o = encode t := by
  induction t generalizing o with
  | nil =>
    exact Classical.not_not.mp fun hne => decodeLossy_ne_nil hne h
  | cons c t ih =>
    obtain ⟨hc, hrest⟩ := List.forall_mem_cons.mp ht
    -- the first octet of ASCII: what stands before it would be read as something before `c`
    obtain ⟨before, b, after, ho, hb, hbefore⟩ : ∃ before b after,
        o = before ++ b :: after ∧ b.toNat < 0x80 ∧ ∀ a ∈ before, ¬a.toNat < 0x80 := by
      have hmem := mem_of_mem_decodeLossy hc (h ▸ List.mem_cons_self : c ∈ decodeLossy o)
      have hany : (o.find? fun b => b.toNat < 0x80).isSome := by
        rw [List.find?_isSome]
        exact ⟨_, hmem, by simpa [toNat_ofNat (show c.toNat < 256 by omega)] using hc⟩
      obtain ⟨b, hfind⟩ := Option.isSome_iff_exists.mp hany
      obtain ⟨hb, before, after, ho, hbefore⟩ := List.find?_eq_some_iff_append.mp hfind
      exact ⟨before, b, after, ho, by simpa using hb, by simpa using hbefore⟩
    rw [ho, decodeLossy_append_ascii hb] at h
    obtain rfl : before = [] := by
      refine Classical.not_not.mp fun hne => ?_
      obtain ⟨d, u, hread⟩ := List.exists_cons_of_ne_nil (decodeLossy_ne_nil hne)
      rw [hread, List.cons_append] at h
      obtain rfl := (List.cons.inj h).1
      have hmem := mem_of_mem_decodeLossy hc (hread ▸ List.mem_cons_self : d ∈ decodeLossy before)
      refine hbefore _ hmem ?_
      rwa [toNat_ofNat (by omega)]
    obtain ⟨hfirst, hlater⟩ := List.cons.inj (show Char.ofNat b.toNat :: decodeLossy after = c :: t
      from h)
    rw [ho, List.nil_append, encode_cons, ← ih hrest hlater, encodeChar_of_lt hc, ← hfirst,
      toNat_charOfNat (.inl (by omega)), UInt8.ofNat_toNat]
    rfl

end Webroot.Utf8
