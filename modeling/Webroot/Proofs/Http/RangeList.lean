import Mathlib.Data.List.DropRight
import Webroot.Proofs.Http.RangeField

/-!
# The grammar of range fields

A range field is written as the unit `bytes=` and a list. Between two commas of the list stands a
range or nothing, with blanks around it (`Slot`), and there may be white space around the whole
(`WrittenField`). All of this is read as the ranges in order, except for one kind of blank: a range
that is not the last thing in the list must be followed by its comma at once, or the field is
refused as a whole. Blanks that stand before a comma but behind another one do no harm. In the other
direction nothing else is read: digits are ASCII digits, and no position reaches 2 ^ 63.

Main statements: `WrittenField.parse?_text_and_eq_some_iff`, and `WrittenField.not_forall_parse?`
for a blank before a comma.
-/

namespace Webroot.Http.RangeSpec

open Text

/-! ### Ranges as they are written -/

/-- A position as it is written: ASCII digits, zeros in front among them, with a value below
2 ^ 63. -/
structure WrittenPosition where
  digits : Text
  ne_nil : digits ≠ []
  all_isDigit : digits.all Char.isDigit = true
  value_lt : Nat.ofDigitChars 10 digits 0 < 0x8000000000000000

namespace WrittenPosition

variable (p : WrittenPosition)

def value : Nat := Nat.ofDigitChars 10 p.digits 0

theorem position?_digits : position? p.digits = some (Int64.ofNat p.value) :=
  position?_eq_some_iff.mpr ⟨p.ne_nil, p.all_isDigit, p.value_lt, rfl⟩

theorem isDigit_of_mem {c : Char} (h : c ∈ p.digits) : c.isDigit = true :=
  List.all_eq_true.mp p.all_isDigit c h

end WrittenPosition

/-- Whatever is read as a position is written as one. -/
theorem exists_of_position? {t : Text} {x : Int64} (h : position? t = some x) :
    ∃ p : WrittenPosition, p.digits = t ∧ Int64.ofNat p.value = x := by
  obtain ⟨hne, hall, hlt, hx⟩ := position?_eq_some_iff.mp h
  exact ⟨⟨t, hne, hall, hlt⟩, rfl, hx⟩

/-- A range as it is written: `a-b`, `a-` or `-n`. -/
inductive WrittenRange where
  | closed (first last : WrittenPosition)
  | toEnd (first : WrittenPosition)
  | suffix (length : WrittenPosition)

namespace WrittenRange

def text : WrittenRange → Text
  | closed first last => first.digits ++ '-' :: last.digits
  | toEnd first => first.digits ++ ['-']
  | suffix length => '-' :: length.digits

/-- The range that is meant. -/
def spec : WrittenRange → RangeSpec
  | closed first last => ⟨Int64.ofNat first.value, Int64.ofNat last.value⟩
  | toEnd first => ⟨Int64.ofNat first.value, -1⟩
  | suffix length => ⟨-Int64.ofNat length.value, -1⟩

variable (range : WrittenRange)

theorem text_ne_nil : range.text ≠ [] := by
  cases range <;> simp [text]

/-- A range is written with digits and a hyphen. -/
theorem digit_or_dash_of_mem {c : Char} (h : c ∈ range.text) : c.isDigit = true ∨ c = '-' := by
  cases range with
  | closed first last =>
    rcases List.mem_append.mp h with h | h
    · exact .inl (first.isDigit_of_mem h)
    · exact (List.mem_cons.mp h).symm.imp_left last.isDigit_of_mem
  | toEnd first =>
    rcases List.mem_append.mp h with h | h
    · exact .inl (first.isDigit_of_mem h)
    · exact .inr (List.mem_singleton.mp h)
  | suffix length => exact (List.mem_cons.mp h).symm.imp_left length.isDigit_of_mem

theorem isBlank_of_mem {c : Char} (h : c ∈ range.text) : isBlank c = false := by
  rcases range.digit_or_dash_of_mem h with hdigit | rfl
  · exact isBlank_of_isDigit hdigit
  · decide

theorem ofText?_text : ofText? range.text = some range.spec := by
  cases range with
  | closed first last => exact ofText?_closed_of first.position?_digits last.position?_digits
  | toEnd first => exact ofText?_open_of first.position?_digits
  | suffix length => exact ofText?_suffix_of length.position?_digits

end WrittenRange

/-- Whatever is read as a range is written as one. -/
theorem exists_of_ofText? {t : Text} {spec : RangeSpec} (h : ofText? t = some spec) :
    ∃ range : WrittenRange, range.text = t ∧ range.spec = spec := by
  rw [ofText?] at h
  split at h
  · cases h
  · rename_i n hcut
    obtain ⟨x, hx, rfl⟩ := Option.map_eq_some_iff.mp h
    obtain ⟨p, rfl, rfl⟩ := exists_of_position? hx
    exact ⟨.suffix p, (eq_of_cut_eq_some hcut).symm, rfl⟩
  · rename_i a _ hcut
    obtain ⟨x, hx, rfl⟩ := Option.map_eq_some_iff.mp h
    obtain ⟨p, rfl, rfl⟩ := exists_of_position? hx
    exact ⟨.toEnd p, (eq_of_cut_eq_some hcut).symm, rfl⟩
  · rename_i a b _ _ hcut
    simp only [Option.bind_eq_bind, Option.bind_eq_some_iff] at h
    obtain ⟨x, hx, y, hy, hspec⟩ := h
    obtain ⟨p, rfl, rfl⟩ := exists_of_position? hx
    obtain ⟨q, rfl, rfl⟩ := exists_of_position? hy
    exact ⟨.closed p q, (eq_of_cut_eq_some hcut).symm, Option.some.inj hspec⟩

/-! ### Pieces between commas -/

theorem pieces_append_comma (t u : Text) : pieces (t ++ ',' :: u) = pieces t ++ pieces u := by
  rw [pieces, pieces, pieces, List.splitOn_append_cons_self, List.map_append, List.filter_append]

theorem pieces_of_not_mem {t : Text} (h : ',' ∉ t) :
    pieces t = [trimStart t].filter fun p => !p.isEmpty := by
  rw [pieces, List.splitOn_eq_singleton h, List.map_singleton]

/-- Blanks at the start are not seen. -/
theorem pieces_append_of_blank {a : Text} (ha : ∀ c ∈ a, isBlank c = true) (t : Text) :
    pieces (a ++ t) = pieces t := by
  have hcomma : ∀ c ∈ a, (c == ',') = false := by
    intro c hc
    rw [beq_eq_false_iff_ne]
    rintro rfl
    exact absurd (ha _ hc) (by decide)
  obtain ⟨first, others, hsplit⟩ := List.exists_cons_of_ne_nil (List.splitOn_ne_nil ',' t)
  have hsplit' : (a ++ t).splitOn ',' = (a ++ first) :: others := by
    rw [List.splitOn_eq_splitOnP, splitOnP_append_of_not hcomma, ← List.splitOn_eq_splitOnP, hsplit,
      List.modifyHead_cons]
  rw [pieces, pieces, hsplit, hsplit', List.map_cons, List.map_cons, trimStart,
    List.dropWhile_append_of_pos ha, ← trimStart]

/-- Trimming at the end is all of trimming that is seen. -/
theorem pieces_trim (t : Text) : pieces (trim t) = pieces (trimEnd isBlank t) := by
  have hblank : ∀ c ∈ t.takeWhile isBlank, isBlank c = true :=
    List.all_eq_true.mp List.all_takeWhile
  have ht : t.takeWhile isBlank ++ t.dropWhile isBlank = t := List.takeWhile_append_dropWhile
  cases hdrop : t.dropWhile isBlank with
  | nil =>
    rw [hdrop, List.append_nil] at ht
    have hnil := trimEnd_append_of_pos (ht ▸ hblank : ∀ c ∈ t, isBlank c = true) []
    rw [List.nil_append] at hnil
    rw [trim, trimBoth, hdrop, hnil]
  | cons c u =>
    have hc : isBlank c = false := by
      have hhead := List.head?_dropWhile_not isBlank t
      rw [hdrop] at hhead
      simpa using hhead
    have hkeep := trimEnd_append_cons hc (t.takeWhile isBlank) u
    rw [trim, trimBoth, hdrop, ← ht, hdrop, hkeep, pieces_append_of_blank hblank]
    exact congrArg pieces (trimEnd_append_cons hc [] u)

/-! ### Slots -/

/-- Blanks that do not end a line. -/
def Gap (t : Text) : Prop := ∀ c ∈ t, isBlank c = true ∧ c ≠ '\n'

instance (t : Text) : Decidable (Gap t) := List.decidableBAll _ t

theorem Gap.nil : Gap [] := List.forall_mem_nil _

theorem Gap.isBlank {t : Text} (h : Gap t) : ∀ c ∈ t, Text.isBlank c = true :=
  fun c hc => (h c hc).1

/-- A **slot** of a list, between two commas: a range or nothing, with blanks around it. -/
structure Slot where
  before : Text
  range : Option WrittenRange
  after : Text
  gap_before : Gap before
  gap_after : Gap after

namespace Slot

variable (slot : Slot)

/-- What stands between the blanks. -/
def inner : Text := match slot.range with
  | none => []
  | some range => range.text

def text : Text := slot.before ++ (slot.inner ++ slot.after)

def specs : List RangeSpec := (slot.range.map WrittenRange.spec).toList

/-- A slot is **tight** when no blank stands behind its range. -/
def Tight : Prop := slot.range.isSome = true → slot.after = []

instance : Decidable slot.Tight := inferInstanceAs (Decidable (_ → _))

theorem mem_text {c : Char} (h : c ∈ slot.text) :
    (Text.isBlank c = true ∧ c ≠ '\n') ∨ c.isDigit = true ∨ c = '-' := by
  rcases List.mem_append.mp h with h | h
  · exact .inl (slot.gap_before c h)
  · rcases List.mem_append.mp h with h | h
    · rw [inner] at h
      split at h
      · cases h
      · exact .inr (WrittenRange.digit_or_dash_of_mem _ h)
    · exact .inl (slot.gap_after c h)

theorem not_mem_text {c : Char} (hblank : Text.isBlank c = true → c = '\n')
    (hdigit : c.isDigit = false) (hdash : c ≠ '-') : c ∉ slot.text := by
  intro h
  rcases slot.mem_text h with ⟨hc, hne⟩ | hc | hc
  · exact hne (hblank hc)
  · rw [hdigit] at hc
    cases hc
  · exact hdash hc

theorem inner_of_none (h : slot.range = none) : slot.inner = [] := by
  rw [inner, h]

theorem inner_of_some {range : WrittenRange} (h : slot.range = some range) :
    slot.inner = range.text := by
  rw [inner, h]

theorem pieces_text_of_none (h : slot.range = none) : pieces slot.text = [] := by
  have hblank : ∀ c ∈ slot.before ++ slot.after, Text.isBlank c = true :=
    List.forall_mem_append.mpr ⟨slot.gap_before.isBlank, slot.gap_after.isBlank⟩
  have hpieces := pieces_append_of_blank hblank []
  rw [text, slot.inner_of_none h, List.nil_append]
  rwa [List.append_nil] at hpieces

theorem pieces_text_of_some {range : WrittenRange} (h : slot.range = some range) :
    pieces slot.text = [range.text ++ slot.after] := by
  have hcomma : ',' ∉ slot.text := slot.not_mem_text (by decide) (by decide) (by decide)
  rw [text, slot.inner_of_some h, List.mem_append, not_or] at hcomma
  obtain ⟨c, t, ht⟩ := List.exists_cons_of_ne_nil range.text_ne_nil
  have hfirst : Text.isBlank c = false := range.isBlank_of_mem (ht ▸ List.mem_cons_self)
  rw [text, slot.inner_of_some h, pieces_append_of_blank slot.gap_before.isBlank,
    pieces_of_not_mem hcomma.2, ht, List.cons_append, trimStart_cons hfirst]
  rfl

/-- A range is read when nothing comes behind it, and else refused. -/
theorem ofText?_text_append (range : WrittenRange) {b : Text} (hb : Gap b) :
    ofText? (range.text ++ b) = if b = [] then some range.spec else none := by
  split_ifs with hnil
  · rw [hnil, List.append_nil, range.ofText?_text]
  · rw [Option.eq_none_iff_forall_ne_some]
    intro spec hspec
    obtain ⟨other, htext, -⟩ := exists_of_ofText? hspec
    obtain ⟨c, t, rfl⟩ := List.exists_cons_of_ne_nil hnil
    have hmem : c ∈ other.text := by simp [htext]
    exact absurd ((hb c List.mem_cons_self).1.symm.trans (other.isBlank_of_mem hmem)) (by decide)

theorem mapM_pieces_text :
    (pieces slot.text).mapM ofText? = if slot.Tight then some slot.specs else none := by
  cases hrange : slot.range with
  | none =>
    rw [slot.pieces_text_of_none hrange, if_pos (by simp [Tight, hrange]), specs, hrange]
    rfl
  | some range =>
    have htight : slot.Tight ↔ slot.after = [] := by simp [Tight, hrange]
    rw [slot.pieces_text_of_some hrange, List.mapM_cons, ofText?_text_append range slot.gap_after,
      specs, hrange]
    simp only [htight]
    split_ifs <;> rfl

/-- The slot without the blanks around its range. -/
def bare : Slot := ⟨[], slot.range, [], Gap.nil, Gap.nil⟩

theorem trim_text : trim slot.text = slot.bare.text := by
  have htrimmed : Trimmed slot.inner := by
    refine .of_forall fun c hc => ?_
    cases hrange : slot.range with
    | none =>
      rw [slot.inner_of_none hrange] at hc
      cases hc
    | some range =>
      rw [slot.inner_of_some hrange] at hc
      exact range.isBlank_of_mem hc
  rw [text, trim_append_append slot.gap_before.isBlank htrimmed slot.gap_after.isBlank, text]
  exact (List.append_nil _).symm

/-- The blanks at the end of the last slot are taken away before it is read. -/
theorem mapM_pieces_trimEnd_text :
    (pieces (trimEnd Text.isBlank slot.text)).mapM ofText? = some slot.specs := by
  have htight : slot.bare.Tight := fun _ => rfl
  rw [← pieces_trim, trim_text, mapM_pieces_text, if_pos htight]
  rfl

end Slot

/-! ### Lists -/

/-- A list as it is written, with a comma between neighbours. -/
def listText (slots : List Slot) : Text := [','].intercalate (slots.map Slot.text)

theorem listText_cons_cons (slot next : Slot) (slots : List Slot) :
    listText (slot :: next :: slots) = slot.text ++ ',' :: listText (next :: slots) := by
  rw [listText, List.map_cons, List.map_cons, List.intercalate_cons_cons, List.append_assoc]
  rfl

/-- The blanks behind the last slot are no blanks before a comma. -/
def TightList (slots : List Slot) : Prop := ∀ slot ∈ slots.dropLast, slot.Tight

instance (slots : List Slot) : Decidable (TightList slots) :=
  inferInstanceAs (Decidable (∀ slot ∈ slots.dropLast, slot.Tight))

theorem tightList_cons_cons {slot next : Slot} {slots : List Slot} :
    TightList (slot :: next :: slots) ↔ slot.Tight ∧ TightList (next :: slots) := by
  rw [TightList, List.dropLast_cons_of_ne_nil (List.cons_ne_nil _ _), List.forall_mem_cons]
  rfl

theorem mapM_pieces_trimEnd_listText (slots : List Slot) :
    (pieces (trimEnd isBlank (listText slots))).mapM ofText? =
      if TightList slots then some (slots.flatMap Slot.specs) else none := by
  -- trimming does not reach beyond the last comma, so only the last slot is read without its blanks
  induction slots with
  | nil => rfl
  | cons slot slots ih =>
    cases slots with
    | nil =>
      have htight : TightList [slot] := List.forall_mem_nil _
      have hlist : listText [slot] = slot.text := List.intercalate_singleton
      rw [hlist, slot.mapM_pieces_trimEnd_text, if_pos htight, List.flatMap_singleton]
    | cons next slots =>
      rw [listText_cons_cons, trimEnd_append_cons (by decide), pieces_append_comma,
        List.mapM_append, slot.mapM_pieces_text, ih, List.flatMap_cons]
      simp only [tightList_cons_cons]
      split_ifs <;> simp_all

/-- The list is on one line. -/
theorem newline_not_mem_listText (slots : List Slot) : '\n' ∉ listText slots := by
  rw [listText, mem_intercalate_iff, not_or]
  refine ⟨?_, fun h => absurd h.1 (by decide)⟩
  rintro ⟨t, ht, hmem⟩
  obtain ⟨slot, -, rfl⟩ := List.mem_map.mp ht
  exact slot.not_mem_text (fun _ => rfl) (by decide) (by decide) hmem

/-- A piece that is read is written as a slot without blanks behind its range. -/
theorem Slot.exists_of_piece {p : Text} (hline : '\n' ∉ p) {specs : List RangeSpec}
    (h : ([trimStart p].filter fun p => !p.isEmpty).mapM ofText? = some specs) :
    ∃ slot : Slot, slot.text = p ∧ slot.Tight ∧ slot.specs = specs := by
  have hsplit : p.takeWhile isBlank ++ trimStart p = p := List.takeWhile_append_dropWhile
  have hgap : Gap (p.takeWhile isBlank) := by
    intro c hc
    refine ⟨List.all_eq_true.mp List.all_takeWhile c hc, ?_⟩
    rintro rfl
    exact hline ((List.takeWhile_prefix _).mem hc)
  cases hrest : trimStart p with
  | nil =>
    rw [hrest] at hsplit h
    exact ⟨⟨_, none, [], hgap, Gap.nil⟩, hsplit, fun _ => rfl, Option.some.inj h⟩
  | cons c t =>
    rw [hrest] at hsplit h
    have hread : (ofText? (c :: t)).map ([·]) = some specs := by
      rw [← h]
      cases hspec : ofText? (c :: t) <;> simp [hspec]
    obtain ⟨spec, hspec, rfl⟩ := Option.map_eq_some_iff.mp hread
    obtain ⟨range, htext, rfl⟩ := exists_of_ofText? hspec
    have hslot : p.takeWhile isBlank ++ (range.text ++ []) = p := by
      rw [htext, List.append_nil, hsplit]
    exact ⟨⟨_, some range, [], hgap, Gap.nil⟩, hslot, fun _ => rfl, rfl⟩

/-- Pieces that are read are written as slots. -/
theorem exists_slots {ps : List Text} (hline : ∀ p ∈ ps, '\n' ∉ p) {specs : List RangeSpec}
    (h : ((ps.map trimStart).filter fun p => !p.isEmpty).mapM ofText? = some specs) :
    ∃ slots : List Slot, slots.map Slot.text = ps ∧ (∀ slot ∈ slots, slot.Tight) ∧
      slots.flatMap Slot.specs = specs := by
  induction ps generalizing specs with
  | nil => exact ⟨[], rfl, List.forall_mem_nil _, Option.some.inj h⟩
  | cons p ps ih =>
    obtain ⟨hp, hps⟩ := List.forall_mem_cons.mp hline
    rw [List.map_cons, ← List.singleton_append, List.filter_append, List.mapM_append] at h
    simp only [Option.bind_eq_bind, Option.bind_eq_some_iff] at h
    obtain ⟨first, hfirst, others, hothers, heq⟩ := h
    obtain ⟨slot, htext, htight, rfl⟩ := Slot.exists_of_piece hp hfirst
    obtain ⟨slots, htexts, htights, rfl⟩ := ih hps hothers
    refine ⟨slot :: slots, ?_, List.forall_mem_cons.mpr ⟨htight, htights⟩, Option.some.inj heq⟩
    rw [List.map_cons, htext, htexts]

/-- A line that is read is written as a list. -/
theorem exists_listText {t : Text} (hline : '\n' ∉ t) {specs : List RangeSpec}
    (h : (pieces t).mapM ofText? = some specs) :
    ∃ slots : List Slot, listText slots = t ∧ TightList slots ∧
      slots.flatMap Slot.specs = specs := by
  have hsplit : [','].intercalate (t.splitOn ',') = t := List.intercalate_splitOn ','
  have hpieces : ∀ p ∈ t.splitOn ',', '\n' ∉ p := by
    intro p hp hmem
    refine hline ?_
    rw [← hsplit, mem_intercalate_iff]
    exact .inl ⟨p, hp, hmem⟩
  obtain ⟨slots, htexts, htight, hspecs⟩ := exists_slots hpieces h
  refine ⟨slots, ?_, fun slot hslot => htight slot (List.dropLast_subset _ hslot), hspecs⟩
  rw [listText, htexts, hsplit]

/-! ### Fields -/

/-- A range field as it is written. -/
structure WrittenField where
  lead : Text
  slots : List Slot
  trail : Text
  blank_lead : ∀ c ∈ lead, isBlank c = true
  blank_trail : ∀ c ∈ trail, isBlank c = true

namespace WrittenField

variable (field : WrittenField)

def text : Text := field.lead ++ ("bytes=" ++ (listText field.slots ++ field.trail))

/-- The ranges that are meant, in order. -/
def specs : List RangeSpec := field.slots.flatMap Slot.specs

/-- No blank stands between a range and the comma after it. -/
def Tight : Prop := TightList field.slots

instance : Decidable field.Tight := inferInstanceAs (Decidable (TightList _))

theorem trim_text : trim field.text = "bytes=" ++ trimEnd isBlank (listText field.slots) := by
  have hfirst : isBlank 'b' = false := by decide
  have hlast : ∀ c ∈ ("bytes=" : Text).getLast?, isBlank c = false := by
    rintro c ⟨⟩
    decide
  have htext : field.text =
      field.lead ++ (("bytes=" ++ listText field.slots) ++ field.trail) := by
    rw [text, List.append_assoc]
  rw [htext, trim_append_append_of_blank field.blank_lead field.blank_trail, trim, trimBoth,
    ← trimEnd_append_of_last hlast]
  exact congrArg _ (trimStart_cons hfirst _)

/-- A field is read as the ranges that are meant, or refused as a whole. -/
theorem parse?_text : parse? field.text = if field.Tight then some field.specs else none := by
  have hline : '\n' ∉ trimEnd isBlank (listText field.slots) := by
    intro hmem
    refine newline_not_mem_listText field.slots ?_
    exact List.mem_reverse.mp (List.dropWhile_subset _ (List.mem_reverse.mp hmem))
  have hagain : trimEnd isBlank (trimEnd isBlank (listText field.slots)) =
      trimEnd isBlank (listText field.slots) := List.rdropWhile_idempotent ..
  rw [parse?, trim_text, after?_append]
  simp only [List.contains_eq_mem, hline, decide_false, Bool.false_eq_true, if_false, pieces_trim,
    hagain, mapM_pieces_trimEnd_listText]
  rfl

/-- Whatever is read is written as a field. -/
theorem exists_of_parse? {value : Text} {specs : List RangeSpec}
    (h : parse? value = some specs) :
    ∃ field : WrittenField, field.Tight ∧ field.text = value ∧ field.specs = specs := by
  rw [parse?] at h
  split at h
  · cases h
  · rename_i rest hunit
    split at h
    · cases h
    · rename_i hline
      obtain ⟨a, b, ha, hb, hvalue⟩ := exists_eq_append_trim value
      obtain ⟨a', b', ha', hb', hrest⟩ := exists_eq_append_trim rest
      have hline' : '\n' ∉ a' ++ trim rest := by
        intro hmem
        refine hline (List.contains_iff_mem.mpr ?_)
        rw [hrest, ← List.append_assoc]
        exact List.mem_append_left b' hmem
      rw [← pieces_append_of_blank ha'] at h
      obtain ⟨slots, hlist, htight, hspecs⟩ := exists_listText hline' h
      refine ⟨⟨a, slots, b' ++ b, ha, List.forall_mem_append.mpr ⟨hb', hb⟩⟩, htight, ?_, hspecs⟩
      calc a ++ ("bytes=" ++ (listText slots ++ (b' ++ b)))
          = a ++ (("bytes=" ++ (a' ++ (trim rest ++ b'))) ++ b) := by
            rw [hlist]
            simp only [List.append_assoc]
        _ = a ++ (trim value ++ b) := by rw [← hrest, ← eq_append_of_after? hunit]
        _ = value := hvalue.symm

/-- **The grammar of range fields.** A written field is read as its ranges in order, or not at all
when there is a blank between a range and the comma after it; and what is read is written so. -/
theorem parse?_text_and_eq_some_iff (field : WrittenField) (value : Text)
    (specs : List RangeSpec) :
    (parse? field.text = if field.Tight then some field.specs else none) ∧
      (parse? value = some specs ↔
        ∃ written : WrittenField,
          written.Tight ∧ written.text = value ∧ written.specs = specs) := by
  refine ⟨field.parse?_text, exists_of_parse?, ?_⟩
  rintro ⟨written, htight, rfl, rfl⟩
  rw [written.parse?_text, if_pos htight]

end WrittenField

/-! ### Two fields -/

/-- A position that is written with zeros in front. -/
def seven : WrittenPosition := ⟨"007", by decide, by decide, by decide⟩

def ten : WrittenPosition := ⟨"10", by decide, by decide, by decide⟩

/-- Blanks behind `bytes=`, an empty element between blanks, and blanks at the end. -/
def spacedField : WrittenField where
  lead := " "
  slots := [⟨" ", some (.closed seven ten), [], by decide, by decide⟩,
    ⟨"\t ", none, [], by decide, by decide⟩, ⟨[], some (.suffix seven), [], by decide, by decide⟩]
  trail := " \n"
  blank_lead := List.all_eq_true.mp (by decide)
  blank_trail := List.all_eq_true.mp (by decide)

theorem parse?_spacedField :
    parse? " bytes= 007-10,\t ,-007 \n" = some [⟨7, 10⟩, ⟨-7, -1⟩] := by
  have hread := WrittenField.parse?_text_and_eq_some_iff spacedField spacedField.text
    spacedField.specs
  have htight : spacedField.Tight := by decide
  rw [if_pos htight] at hread
  exact hread.1

/-- A blank between a range and the comma after it. -/
def looseField : WrittenField where
  lead := []
  slots := [⟨[], some (.closed seven ten), " ", by decide, by decide⟩,
    ⟨[], some (.toEnd ten), [], by decide, by decide⟩]
  trail := []
  blank_lead := List.forall_mem_nil _
  blank_trail := List.forall_mem_nil _

/-- A written field need not be read, also when all its blanks are spaces and tabs. -/
theorem WrittenField.not_forall_parse? :
    ¬∀ field : WrittenField, field.specs ≠ [] → PlainBlanks field.text →
      parse? field.text = some field.specs := by
  intro h
  have hread : parse? looseField.text = none := by
    rw [WrittenField.parse?_text, if_neg (by decide)]
  have heq := h looseField (by decide) (by decide)
  rw [hread] at heq
  cases heq

end Webroot.Http.RangeSpec
