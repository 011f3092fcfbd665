import Mathlib.Tactic.SplitIfs
import Webroot.Text.Utf8

/-!
# UTF-8, written and read

Decoding undoes encoding. The decoder passes through the octets of a character and stands between
characters again, whatever follows (`pieces_encodeChar_append`): the first octet says how many
octets are owed, and in which range the second one lies.

Main statement: `decode?_encode`.
-/

namespace Webroot.Utf8

/-! ### Encoding -/

@[simp]
theorem encode_nil : encode [] = [] := rfl

theorem encode_cons (c : Char) (t : Text) : encode (c :: t) = encodeChar c ++ encode t := rfl

@[simp]
theorem encode_append (t u : Text) : encode (t ++ u) = encode t ++ encode u := List.flatMap_append

theorem toNat_ofNat {n : Nat} (h : n < 256) : (UInt8.ofNat n).toNat = n :=
  UInt8.toNat_ofNat_of_lt' h

/-- The number of a character is a scalar value. -/
theorem scalar (c : Char) : c.toNat < 0xD800 ∨ 0xDFFF < c.toNat ∧ c.toNat < 0x110000 := c.valid

theorem encodeChar_of_lt {c : Char} (h : c.toNat < 0x80) :
    encodeChar c = [UInt8.ofNat c.toNat] := by
  rw [encodeChar]
  exact if_pos h

theorem encodeChar_ne_nil (c : Char) : encodeChar c ≠ [] := by
  simp only [encodeChar]
  split_ifs <;> exact List.cons_ne_nil _ _

theorem encode_ne_nil {t : Text} (h : t ≠ []) : encode t ≠ [] := by
  obtain ⟨c, t, rfl⟩ := List.exists_cons_of_ne_nil h
  exact List.append_ne_nil_of_left_ne_nil (encodeChar_ne_nil c) (encode t)

/-- The octets of a character outside ASCII lie outside ASCII. -/
theorem le_of_mem_encodeChar {c : Char} {b : UInt8} (hc : 0x80 ≤ c.toNat)
    (hb : b ∈ encodeChar c) : 0x80 ≤ b.toNat := by
  have hscalar := scalar c
  simp only [encodeChar] at hb
  split_ifs at hb with h₁ h₂ h₃
  · omega
  all_goals
    simp only [List.mem_cons, List.not_mem_nil, or_false] at hb
    rcases hb with rfl | rfl | rfl | rfl <;> rw [toNat_ofNat (by omega)] <;> omega

/-- A character of ASCII is in a text if its octet is in the octets of the text. -/
theorem mem_of_mem_encode {c : Char} {t : Text} (hc : c.toNat < 0x80)
    (h : UInt8.ofNat c.toNat ∈ encode t) : c ∈ t := by
  obtain ⟨d, hd, hmem⟩ := List.mem_flatMap.mp h
  have hoctet : (UInt8.ofNat c.toNat).toNat = c.toNat := toNat_ofNat (by omega)
  -- the octets of longer characters all lie outside ASCII
  have hlt : d.toNat < 0x80 := by
    rcases Nat.lt_or_ge d.toNat 0x80 with hlt | hge
    · exact hlt
    · have hle := le_of_mem_encodeChar hge hmem
      omega
  rw [encodeChar_of_lt hlt, List.mem_singleton] at hmem
  have heq : c.toNat = d.toNat := by
    rw [← hoctet, hmem, toNat_ofNat (by omega)]
  rw [Char.toNat_inj.mp heq]
  exact hd

/-! ### One octet after another -/

theorem piecesFrom_octet (s : State) (b : UInt8) (o : Octets) :
    piecesFrom s (b :: o) = (step s b.toNat).1 ++ piecesFrom (step s b.toNat).2 o := by
  cases s <;> rfl

theorem piecesFrom_cons (s : State) {n : Nat} (hn : n < 256) (o : Octets) :
    piecesFrom s (UInt8.ofNat n :: o) = (step s n).1 ++ piecesFrom (step s n).2 o := by
  rw [piecesFrom_octet, toNat_ofNat hn]

/-- The last octet of a character completes it. -/
theorem piecesFrom_last {lo hi bits n : Nat} (hlo : lo ≤ n) (hhi : n ≤ hi) (hn : n < 256)
    (o : Octets) :
    piecesFrom (.within 0 lo hi bits) (UInt8.ofNat n :: o) =
      some (Char.ofNat (bits * 0x40 + (n - 0x80))) :: pieces o := by
  rw [piecesFrom_cons _ hn, step, if_pos ⟨hlo, hhi⟩]
  rfl

/-- An octet inside a character adds six bits. -/
theorem piecesFrom_within {owed lo hi bits n : Nat} (hlo : lo ≤ n) (hhi : n ≤ hi) (hn : n < 256)
    (o : Octets) :
    piecesFrom (.within (owed + 1) lo hi bits) (UInt8.ofNat n :: o) =
      piecesFrom (.within owed 0x80 0xBF (bits * 0x40 + (n - 0x80))) o := by
  rw [piecesFrom_cons _ hn, step, if_pos ⟨hlo, hhi⟩]
  rfl

/-- The first octet of a longer character opens it. -/
theorem pieces_of_start {n : Nat} {s : State} (hs : start n = ([], s)) (hn : n < 256)
    (o : Octets) : pieces (UInt8.ofNat n :: o) = piecesFrom s o := by
  rw [pieces, piecesFrom_cons _ hn, step, hs]
  rfl

/-! ### The first octet -/

theorem start_two {n : Nat} (h : 0x80 ≤ n) (h' : n < 0x800) :
    start (0xC0 + n / 0x40) = ([], .within 0 0x80 0xBF (n / 0x40)) := by
  rw [start, if_neg (by omega), if_neg (by omega), if_pos (by omega), Nat.add_sub_cancel_left]

/-- The second octet of a character of three lies in the range that the first one asks for. -/
theorem start_three {n : Nat} (h : 0x800 ≤ n) (h' : n < 0x10000)
    (hscalar : n < 0xD800 ∨ 0xDFFF < n) :
    ∃ lo hi, start (0xE0 + n / 0x1000) = ([], .within 1 lo hi (n / 0x1000)) ∧
      lo ≤ 0x80 + n / 0x40 % 0x40 ∧ 0x80 + n / 0x40 % 0x40 ≤ hi := by
  rw [start, if_neg (by omega), if_neg (by omega), if_neg (by omega)]
  split_ifs with he0 hed hlt
  · exact ⟨_, _, by rw [show n / 0x1000 = 0 by omega], by omega, by omega⟩
  · exact ⟨_, _, by rw [show n / 0x1000 = 0xD by omega], by omega, by omega⟩
  · exact ⟨_, _, by rw [Nat.add_sub_cancel_left], by omega, by omega⟩
  · omega
  · omega
  · omega
  · omega

/-- The second octet of a character of four lies in the range that the first one asks for. -/
theorem start_four {n : Nat} (h : 0x10000 ≤ n) (h' : n < 0x110000) :
    ∃ lo hi, start (0xF0 + n / 0x40000) = ([], .within 2 lo hi (n / 0x40000)) ∧
      lo ≤ 0x80 + n / 0x1000 % 0x40 ∧ 0x80 + n / 0x1000 % 0x40 ≤ hi := by
  rw [start, if_neg (by omega), if_neg (by omega), if_neg (by omega), if_neg (by omega),
    if_neg (by omega), if_neg (by omega)]
  split_ifs with hf0 hlt hf4
  · exact ⟨_, _, by rw [show n / 0x40000 = 0 by omega], by omega, by omega⟩
  · exact ⟨_, _, by rw [Nat.add_sub_cancel_left], by omega, by omega⟩
  · exact ⟨_, _, by rw [show n / 0x40000 = 4 by omega], by omega, by omega⟩
  · omega

/-! ### Whole characters -/

/-- The octets of a character are read as that character. -/
theorem pieces_encodeChar_append (c : Char) (o : Octets) :
    pieces (encodeChar c ++ o) = some c :: pieces o := by
  have hscalar := scalar c
  have hchar : ∀ n, n = c.toNat → Char.ofNat n = c := by
    rintro n rfl
    exact Char.ofNat_toNat c
  simp only [encodeChar]
  -- one case for each number of octets
  split_ifs with h₁ h₂ h₃
  · have hstart : start c.toNat = ([some c], .idle) := by
      rw [start, if_pos h₁, hchar _ rfl]
    rw [List.singleton_append, pieces, piecesFrom_cons _ (by omega), step, hstart]
    rfl
  · rw [List.cons_append, List.singleton_append,
      pieces_of_start (start_two (by omega) h₂) (by omega),
      piecesFrom_last (by omega) (by omega) (by omega), hchar _ (by omega)]
  · obtain ⟨lo, hi, hstart, hlo, hhi⟩ := start_three (n := c.toNat) (by omega) h₃ (by omega)
    rw [List.cons_append, List.cons_append, List.singleton_append,
      pieces_of_start hstart (by omega), piecesFrom_within hlo hhi (by omega),
      piecesFrom_last (by omega) (by omega) (by omega), hchar _ (by omega)]
  · obtain ⟨lo, hi, hstart, hlo, hhi⟩ := start_four (n := c.toNat) (by omega) (by omega)
    rw [List.cons_append, List.cons_append, List.cons_append, List.singleton_append,
      pieces_of_start hstart (by omega), piecesFrom_within hlo hhi (by omega),
      piecesFrom_within (by omega) (by omega) (by omega),
      piecesFrom_last (by omega) (by omega) (by omega), hchar _ (by omega)]

/-- The octets of a text are read as that text. -/
theorem pieces_encode_append (t : Text) (o : Octets) :
    pieces (encode t ++ o) = t.map some ++ pieces o := by
  induction t with
  | nil => rfl
  | cons c t ih =>
    rw [encode_cons, List.append_assoc, pieces_encodeChar_append, ih]
    rfl

/-! ### Octets of ASCII -/

/-- The decoder **expects no ASCII** when it stands inside a character. -/
def State.ExpectsNoAscii : State → Prop
  | .idle => True
  | .within _ lo _ _ => 0x80 ≤ lo

theorem expectsNoAscii_start (b : Nat) : (start b).2.ExpectsNoAscii := by
  simp only [start]
  split_ifs <;> simp [State.ExpectsNoAscii]

theorem State.ExpectsNoAscii.step {s : State} (h : s.ExpectsNoAscii) (b : Nat) :
    (step s b).2.ExpectsNoAscii := by
  cases s with
  | idle => exact expectsNoAscii_start b
  | within owed lo hi bits =>
    rw [Utf8.step]
    split_ifs
    · cases owed with
      | zero => exact trivial
      | succ owed => exact Nat.le_refl 0x80
    · exact expectsNoAscii_start b

/-- An octet of ASCII ends an unfinished character and is read on its own. -/
theorem piecesFrom_append_ascii {s : State} (hs : s.ExpectsNoAscii) {b : UInt8}
    (hb : b.toNat < 0x80) (o o' : Octets) :
    piecesFrom s (o ++ b :: o') = piecesFrom s o ++ pieces (b :: o') := by
  induction o generalizing s with
  | nil =>
    cases s with
    | idle => rfl
    | within owed lo hi bits =>
      have hout : ¬(lo ≤ b.toNat ∧ b.toNat ≤ hi) := fun h => by
        have hlo : 0x80 ≤ lo := hs
        omega
      rw [List.nil_append, piecesFrom_octet, Utf8.step, if_neg hout, pieces, piecesFrom_octet]
      rfl
  | cons a o ih =>
    rw [List.cons_append, piecesFrom_octet, piecesFrom_octet, ih (hs.step _), List.append_assoc]

theorem pieces_append_ascii {b : UInt8} (hb : b.toNat < 0x80) (o o' : Octets) :
    pieces (o ++ b :: o') = pieces o ++ pieces (b :: o') :=
  piecesFrom_append_ascii (s := .idle) trivial hb o o'

theorem mapM_id_map_some (t : Text) : (t.map some).mapM (id : Piece → Piece) = some t := by
  induction t with
  | nil => rfl
  | cons c t ih =>
    rw [List.map_cons, List.mapM_cons, ih]
    rfl

/-- Octets that begin with those of a text are that text and what the rest is, if the rest is a
text. -/
theorem decode?_encode_append (t : Text) (o : Octets) :
    decode? (encode t ++ o) = (decode? o).map (t ++ ·) := by
  rw [decode?, pieces_encode_append, List.mapM_append, mapM_id_map_some, decode?]
  cases (pieces o).mapM id with
  | none => rfl
  | some u => rfl

/-- Octets that an octet of ASCII cuts in two are a text when both parts are. -/
theorem decode?_append_ascii {b : UInt8} (hb : b.toNat < 0x80) (o o' : Octets) :
    decode? (o ++ b :: o') = (decode? o).bind fun t => (decode? (b :: o')).map (t ++ ·) := by
  rw [decode?, pieces_append_ascii hb, List.mapM_append, decode?, decode?]
  cases (pieces o).mapM id with
  | none => rfl
  | some t => cases (pieces (b :: o')).mapM id <;> rfl

/-- **Decoding undoes encoding.** -/
theorem decode?_encode (t : Text) : decode? (encode t) = some t := by
  have happend := decode?_encode_append t []
  rw [List.append_nil, show decode? [] = some [] from rfl, Option.map_some, List.append_nil]
    at happend
  exact happend

/-- Two texts with the same octets are the same. -/
theorem encode_injective {t u : Text} (h : encode t = encode u) : t = u := by
  have ht := decode?_encode t
  rw [h, decode?_encode] at ht
  exact (Option.some.inj ht).symm

end Webroot.Utf8
