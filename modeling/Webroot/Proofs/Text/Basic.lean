import Webroot.Text.Blank
import Webroot.Text.Numeral

/-!
# Texts, cut and trimmed

What is joined with a separator is cut at it again (`cut_append_cons`), trimming takes away the
white space around a text and no more (`trim_append_append`), and a numeral is read back with or
without zeros in front (`readDecimal?_numeral`).
-/

namespace Webroot.Text

/-! ### White space -/

theorem isBlank_of_isDigit {c : Char} (h : c.isDigit = true) : isBlank c = false := by
  have hrange : 48 ≤ c.toNat ∧ c.toNat ≤ 57 := by
    simpa [Char.isDigit, UInt32.le_iff_toNat_le] using h
  simp [isBlank, whiteSpace, CharSet.has]
  omega

theorem isBlank_of_mem_of_any {t : Text} (h : t.any isBlank = false) :
    ∀ c ∈ t, isBlank c = false := by
  simpa using h

/-- White space has no letter case. -/
theorem toUpper_of_isBlank {c : Char} (h : isBlank c = true) : c.toUpper = c := by
  have hnot : ¬(97 ≤ c.toNat ∧ c.toNat ≤ 122) := by
    intro hletter
    simp [isBlank, whiteSpace, CharSet.has] at h
    omega
  refine dif_neg fun hletter => hnot ?_
  simpa [UInt32.le_iff_toNat_le] using hletter

/-- A text with **plain blanks** has no white space but spaces and tabs. -/
def PlainBlanks (t : Text) : Prop := ∀ c ∈ t, isBlank c = true → c = ' ' ∨ c = '\t'

instance (t : Text) : Decidable (PlainBlanks t) := List.decidableBAll _ t

theorem trimStart_cons {c : Char} (h : isBlank c = false) (t : Text) :
    trimStart (c :: t) = c :: t := by
  rw [trimStart, List.dropWhile_cons_of_neg]
  simp [h]

theorem trimStart_eq_self {t : Text} (h : ∀ c ∈ t, isBlank c = false) : trimStart t = t := by
  cases t with
  | nil => rfl
  | cons c t => exact trimStart_cons (h c List.mem_cons_self) t

/-- A text is **trimmed** when it neither starts nor ends with white space. -/
structure Trimmed (t : Text) : Prop where
  first : ∀ c ∈ t.head?, isBlank c = false
  last : ∀ c ∈ t.getLast?, isBlank c = false

theorem Trimmed.of_forall {t : Text} (h : ∀ c ∈ t, isBlank c = false) : Trimmed t :=
  ⟨fun c hc => h c (List.mem_of_mem_head? hc), fun c hc => h c (List.mem_of_mem_getLast? hc)⟩

theorem dropWhile_append_of_first {p : Char → Bool} {a t : Text} (ha : ∀ c ∈ a, p c = true)
    (ht : ∀ c ∈ t.head?, p c = false) : (a ++ t).dropWhile p = t := by
  rw [List.dropWhile_append_of_pos ha]
  cases t with
  | nil => rfl
  | cons c t => exact List.dropWhile_cons_of_neg (by simp [ht c rfl])

/-- The longest part of a text with characters of a kind, where another kind follows. -/
theorem takeWhile_append_of_first {p : Char → Bool} {a t : Text} (ha : ∀ c ∈ a, p c = true)
    (ht : ∀ c ∈ t.head?, p c = false) : (a ++ t).takeWhile p = a := by
  rw [List.takeWhile_append_of_pos ha]
  cases t with
  | nil => simp
  | cons c t => simp [ht c rfl]

/-- Trimming at the end leaves a start. -/
theorem trimEnd_prefix (p : Char → Bool) (t : Text) : trimEnd p t <+: t := by
  have hsuffix : t.reverse.dropWhile p <:+ t.reverse := List.dropWhile_suffix p
  rw [trimEnd, ← List.reverse_suffix, List.reverse_reverse]
  exact hsuffix

/-- White space at the end is taken away up to the last character that is none. -/
theorem trimEnd_append {t b : Text} (hlast : ∀ c ∈ t.getLast?, isBlank c = false)
    (hb : ∀ c ∈ b, isBlank c = true) : trimEnd isBlank (t ++ b) = t := by
  have hreverse : ∀ c ∈ b.reverse, isBlank c = true :=
    fun c hc => hb c (List.mem_reverse.mp hc)
  rw [trimEnd, List.reverse_append,
    dropWhile_append_of_first hreverse (by simpa using hlast), List.reverse_reverse]

/-- Trimming at the end takes away what stands there to be taken away. -/
theorem trimEnd_append_of_pos {p : Char → Bool} {b : Text} (hb : ∀ c ∈ b, p c = true) (t : Text) :
    trimEnd p (t ++ b) = trimEnd p t := by
  have hreverse : ∀ c ∈ b.reverse, p c = true := fun c hc => hb c (List.mem_reverse.mp hc)
  rw [trimEnd, trimEnd, List.reverse_append, List.dropWhile_append_of_pos hreverse]

/-- Trimming at the end leaves a start whose last character stays. -/
theorem trimEnd_append_of_last {p : Char → Bool} {a : Text} (ha : ∀ c ∈ a.getLast?, p c = false)
    (t : Text) : trimEnd p (a ++ t) = a ++ trimEnd p t := by
  have hkeep : a.reverse.dropWhile p = a.reverse := by
    have hnone : ∀ c ∈ ([] : Text), p c = true := fun c hc => absurd hc List.not_mem_nil
    simpa using dropWhile_append_of_first hnone (t := a.reverse) (by simpa using ha)
  rw [trimEnd, trimEnd, List.reverse_append, List.dropWhile_append, hkeep]
  split
  · rename_i hempty
    rw [List.isEmpty_iff.mp hempty, List.reverse_reverse, List.reverse_nil, List.append_nil]
  · rw [List.reverse_append, List.reverse_reverse]

/-- Trimming at the end goes no further than the last character that stays. -/
theorem trimEnd_append_cons {p : Char → Bool} {c : Char} (hc : p c = false) (a t : Text) :
    trimEnd p (a ++ c :: t) = a ++ c :: trimEnd p t := by
  have hlast : ∀ d ∈ (a ++ [c]).getLast?, p d = false := by
    rw [List.getLast?_concat]
    rintro d ⟨⟩
    exact hc
  have hkeep := trimEnd_append_of_last hlast t
  rwa [List.append_assoc, List.append_assoc] at hkeep

/-- Trimming takes away the white space around a trimmed text. -/
theorem trim_append_append {a t b : Text} (ha : ∀ c ∈ a, isBlank c = true) (ht : Trimmed t)
    (hb : ∀ c ∈ b, isBlank c = true) : trim (a ++ (t ++ b)) = t := by
  rw [trim, trimBoth]
  cases t with
  | nil =>
    -- nothing but white space: all of it goes at the first end
    have hall : ∀ c ∈ a ++ b, isBlank c = true := by
      intro c hc
      exact (List.mem_append.mp hc).elim (ha c) (hb c)
    have hnil := dropWhile_append_of_first hall (t := []) (by simp)
    rw [List.append_nil] at hnil
    rw [List.nil_append, hnil]
    rfl
  | cons c t =>
    rw [dropWhile_append_of_first ha (by simpa using ht.first), trimEnd_append ht.last hb]

theorem trim_of_trimmed {t : Text} (h : Trimmed t) : trim t = t := by
  have hnone : ∀ c ∈ ([] : Text), isBlank c = true := fun c hc => absurd hc List.not_mem_nil
  simpa using trim_append_append hnone h hnone

/-- Trimming leaves a text without white space as it is. -/
theorem trim_eq_self {t : Text} (h : ∀ c ∈ t, isBlank c = false) : trim t = t :=
  trim_of_trimmed (Trimmed.of_forall h)

/-- Trimming does not look at white space that is put around a text. -/
theorem trim_append_append_of_blank {a b : Text} (ha : ∀ c ∈ a, isBlank c = true)
    (hb : ∀ c ∈ b, isBlank c = true) (t : Text) : trim (a ++ (t ++ b)) = trim t := by
  rw [trim, trim, trimBoth, trimBoth, List.dropWhile_append_of_pos ha, List.dropWhile_append]
  split
  · rename_i hempty
    have hnil := dropWhile_append_of_first hb (t := []) (by simp)
    rw [List.append_nil] at hnil
    rw [List.isEmpty_iff.mp hempty, hnil]
  · exact trimEnd_append_of_pos hb _

/-- Trimming takes away nothing but white space at the two ends. -/
theorem exists_eq_append_trim (t : Text) :
    ∃ a b, (∀ c ∈ a, isBlank c = true) ∧ (∀ c ∈ b, isBlank c = true) ∧ t = a ++ (trim t ++ b) := by
  refine ⟨t.takeWhile isBlank, ((t.dropWhile isBlank).reverse.takeWhile isBlank).reverse,
    List.all_eq_true.mp List.all_takeWhile,
    fun c hc => List.all_eq_true.mp List.all_takeWhile c (List.mem_reverse.mp hc), ?_⟩
  rw [trim, trimBoth, trimEnd, ← List.reverse_append, List.takeWhile_append_dropWhile,
    List.reverse_reverse, List.takeWhile_append_dropWhile]

/-! ### Numerals with leading zeros -/

/-- The decimal numeral of a number with zeros in front. -/
def numeral (zeros n : Nat) : Text := List.replicate zeros '0' ++ decimal n

theorem numeral_ne_nil (zeros n : Nat) : numeral zeros n ≠ [] := by
  simp [numeral, decimal]

theorem isDigit_of_mem_numeral {zeros n : Nat} {c : Char} (h : c ∈ numeral zeros n) :
    c.isDigit = true := by
  rcases List.mem_append.mp h with h | h
  · rw [List.eq_of_mem_replicate h]
    rfl
  · exact Nat.isDigit_of_mem_toDigits (by decide) (by decide) h

/-- Reading a numeral gives its number. -/
theorem readDecimal?_numeral (zeros n : Nat) : readDecimal? (numeral zeros n) = some n := by
  have hempty : (numeral zeros n).isEmpty = false := by simp [numeral_ne_nil]
  have hdigits : (numeral zeros n).all Char.isDigit = true :=
    List.all_eq_true.mpr fun c hc => isDigit_of_mem_numeral hc
  rw [readDecimal?, hempty, hdigits, numeral, Nat.ofDigitChars_append,
    Nat.ofDigitChars_replicate_zero, decimal, Nat.mul_zero, Nat.ofDigitChars_ten_toDigits]
  rfl

/-- A numeral holds nothing but digits. -/
theorem not_mem_decimal {c : Char} (hc : c.isDigit = false) (n : Nat) : c ∉ decimal n := by
  intro h
  have hmem : c ∈ numeral 0 n := h
  rw [isDigit_of_mem_numeral hmem] at hc
  cases hc

theorem readDecimal?_decimal (n : Nat) : readDecimal? (decimal n) = some n :=
  readDecimal?_numeral 0 n

/-! ### Cutting -/

theorem cut_eq_none {sep : Char} {t : Text} (h : sep ∉ t) : cut sep t = none := by
  induction t with
  | nil => rfl
  | cons c t ih =>
    obtain ⟨hc, ht⟩ : sep ≠ c ∧ sep ∉ t := by simpa using h
    rw [cut, if_neg hc.symm, ih ht]
    rfl

/-- A text is cut at its first separator. -/
theorem cut_append_cons {sep : Char} {a : Text} (h : sep ∉ a) (b : Text) :
    cut sep (a ++ sep :: b) = some (a, b) := by
  induction a with
  | nil => simp [cut]
  | cons c a ih =>
    obtain ⟨hc, ha⟩ : sep ≠ c ∧ sep ∉ a := by simpa using h
    rw [List.cons_append, cut, if_neg hc.symm, ih ha]
    rfl

/-- A text that is cut is its two parts with the separator between them. -/
theorem eq_of_cut_eq_some {sep : Char} {t a b : Text} (h : cut sep t = some (a, b)) :
    t = a ++ sep :: b := by
  induction t generalizing a with
  | nil => cases h
  | cons c t ih =>
    rw [cut] at h
    split at h
    · rename_i hc
      obtain ⟨rfl, rfl⟩ := Prod.mk.inj (Option.some.inj h)
      rw [hc, List.nil_append]
    · obtain ⟨⟨a', b'⟩, hcut, hpair⟩ := Option.map_eq_some_iff.mp h
      obtain ⟨rfl, rfl⟩ := Prod.mk.inj hpair
      rw [ih hcut, List.cons_append]

/-- A text without the first character of a separator goes before the part that is cut off. -/
theorem cutAt_append {first : Char} {t : Text} (h : first ∉ t) (sep rest : Text) :
    cutAt (first :: sep) (t ++ rest) =
      (cutAt (first :: sep) rest).map fun ab => (t ++ ab.1, ab.2) := by
  induction t with
  | nil => simp
  | cons c t ih =>
    obtain ⟨hc, ht⟩ : first ≠ c ∧ first ∉ t := by simpa using h
    rw [List.cons_append, cutAt, after?, if_neg hc]
    simp only [ih ht, Option.map_map]
    rfl

/-- The part of a text before a character reaches beyond a text without it. -/
theorem takeWhile_append {c : Char} {a : Text} (h : c ∉ a) (t : Text) :
    (a ++ t).takeWhile (· != c) = a ++ t.takeWhile (· != c) := by
  refine List.takeWhile_append_of_pos ?_
  intro d hd
  rw [bne_iff_ne]
  rintro rfl
  exact h hd

/-- No piece of a split holds a character that was split at. -/
theorem not_of_mem_splitOnP {p : Char → Bool} {t piece : Text} (h : piece ∈ t.splitOnP p) :
    ∀ c ∈ piece, p c = false := by
  induction t generalizing piece with
  | nil =>
    rw [List.splitOnP_nil, List.mem_singleton] at h
    simp [h]
  | cons c t ih =>
    rw [List.splitOnP_cons_eq_if_modifyHead] at h
    split at h
    · rcases List.mem_cons.mp h with rfl | h
      · exact fun d hd => absurd hd List.not_mem_nil
      · exact ih h
    · rename_i hc
      rw [Bool.not_eq_true] at hc
      obtain ⟨first, others, hsplit⟩ := List.exists_cons_of_ne_nil (List.splitOnP_ne_nil p t)
      rw [hsplit, List.modifyHead_cons] at h
      rcases List.mem_cons.mp h with rfl | h
      · have hfirst : ∀ d ∈ first, p d = false := ih (by simp [hsplit])
        exact List.forall_mem_cons.mpr ⟨hc, hfirst⟩
      · exact ih (by simp [hsplit, h])

/-- A word holds no white space. -/
theorem isBlank_of_mem_words {t w : Text} (h : w ∈ words t) : ∀ c ∈ w, isBlank c = false :=
  not_of_mem_splitOnP (List.mem_filter.mp h).1

/-- Characters that a split is not made at go before the first piece. -/
theorem splitOnP_append_of_not {p : Char → Bool} {a : Text} (ha : ∀ c ∈ a, p c = false)
    (t : Text) : (a ++ t).splitOnP p = (t.splitOnP p).modifyHead (a ++ ·) := by
  induction a with
  | nil => exact (congrFun List.modifyHead_id (t.splitOnP p)).symm
  | cons c a ih =>
    obtain ⟨hc, ha⟩ := List.forall_mem_cons.mp ha
    rw [List.cons_append, List.splitOnP_cons_eq_if_modifyHead, if_neg (by simp [hc]), ih ha,
      List.modifyHead_modifyHead]
    rfl

/-- White space in front adds no word. -/
theorem words_append_of_blank {a : Text} (ha : ∀ c ∈ a, isBlank c = true) (t : Text) :
    words (a ++ t) = words t := by
  induction a with
  | nil => rfl
  | cons c a ih =>
    obtain ⟨hc, ha⟩ := List.forall_mem_cons.mp ha
    rw [List.cons_append, words, List.splitOnP_cons_eq_if_modifyHead, if_pos hc]
    exact ih ha

/-- What stands before white space is a word. -/
theorem words_append_cons {a : Text} (ha : ∀ c ∈ a, isBlank c = false) (hne : a ≠ []) {c : Char}
    (hc : isBlank c = true) (t : Text) : words (a ++ c :: t) = a :: words t := by
  rw [words, splitOnP_append_of_not ha, List.splitOnP_cons_eq_if_modifyHead, if_pos hc,
    List.modifyHead_cons, List.append_nil, List.filter_cons_of_pos (by simp [hne]), words]

/-- What stands before the first white space begins the first word. -/
theorem exists_words_append {a : Text} (ha : ∀ c ∈ a, isBlank c = false) (hne : a ≠ [])
    (t : Text) : ∃ b others, words (a ++ t) = (a ++ b) :: others := by
  obtain ⟨first, others, hsplit⟩ := List.exists_cons_of_ne_nil (List.splitOnP_ne_nil isBlank t)
  refine ⟨first, others.filter fun w => !w.isEmpty, ?_⟩
  rw [words, splitOnP_append_of_not ha, hsplit, List.modifyHead_cons,
    List.filter_cons_of_pos (by simp [hne])]

theorem after?_append (start t : Text) : after? start (start ++ t) = some t := by
  induction start with
  | nil => rfl
  | cons c start ih => rw [List.cons_append, after?, if_pos rfl, ih]

/-- A text that begins with a start is the start and what follows it. -/
theorem eq_append_of_after? {start t rest : Text} (h : after? start t = some rest) :
    t = start ++ rest := by
  fun_induction after? start t with
  | case1 t => exact Option.some.inj h
  | case2 => cases h
  | case3 c ps cs ih => rw [ih h, List.cons_append]
  | case4 => cases h

/-- Whether a text begins with a start is settled once it is as long as the start. -/
theorem after?_append_of_length_le {start t : Text} (h : start.length ≤ t.length) (u : Text) :
    after? start (t ++ u) = (after? start t).map (· ++ u) := by
  cases hstart : after? start t with
  | some rest =>
    rw [eq_append_of_after? hstart, List.append_assoc, after?_append]
    rfl
  | none =>
    rw [Option.map_none, Option.eq_none_iff_forall_ne_some]
    intro rest hrest
    have hprefix : start <+: t ++ u := ⟨rest, (eq_append_of_after? hrest).symm⟩
    obtain ⟨t', rfl⟩ := List.prefix_of_prefix_length_le hprefix (List.prefix_append t u) h
    rw [after?_append] at hstart
    cases hstart

/-- A text in which a separator stands is cut there or before, whatever follows. -/
theorem exists_cutAt_append {sep : Text} (hsep : sep ≠ []) (t : Text) :
    ∃ a b, ∀ u, cutAt sep (t ++ (sep ++ u)) = some (a, b ++ u) := by
  induction t with
  | nil =>
    refine ⟨[], [], fun u => ?_⟩
    obtain ⟨first, rest, rfl⟩ := List.exists_cons_of_ne_nil hsep
    rw [List.nil_append, List.cons_append, cutAt, ← List.cons_append, after?_append]
    rfl
  | cons c t ih =>
    obtain ⟨a, b, hcut⟩ := ih
    -- the separator itself makes the text long enough to tell whether it begins here
    have hlength : sep.length ≤ (c :: (t ++ sep)).length := by
      simp only [List.length_cons, List.length_append]
      omega
    have hbegin := after?_append_of_length_le hlength
    simp only [List.cons_append, List.append_assoc] at hbegin
    cases hstart : after? sep (c :: (t ++ sep)) with
    | some rest =>
      refine ⟨[], rest, fun u => ?_⟩
      rw [List.cons_append, cutAt, hbegin, hstart]
      rfl
    | none =>
      refine ⟨c :: a, b, fun u => ?_⟩
      rw [List.cons_append, cutAt, hbegin, hstart]
      simp only [Option.map_none, hcut u, Option.map_some]

/-! ### Joining -/

/-- Joining goes from the first text on. -/
theorem join_append_cons (sep a b : Text) (ts : List Text) :
    join sep ((a ++ sep ++ b) :: ts) = join sep (a :: b :: ts) := by
  cases ts with
  | nil => rfl
  | cons t ts => simp [join]

/-- Texts with a separator between neighbours hold what the texts hold, and what the separator holds
when there are two texts. -/
theorem mem_intercalate_iff {sep : Text} {ts : List Text} {c : Char} :
    c ∈ sep.intercalate ts ↔ (∃ t ∈ ts, c ∈ t) ∨ (c ∈ sep ∧ 1 < ts.length) := by
  induction ts with
  | nil => simp
  | cons t ts ih =>
    cases ts with
    | nil => simp
    | cons u ts =>
      have hlength : 1 < (t :: u :: ts).length := by simp
      rw [List.intercalate_cons_cons, List.mem_append, List.mem_append, ih, and_iff_left hlength]
      grind

end Webroot.Text
