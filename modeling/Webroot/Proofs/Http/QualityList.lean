import Mathlib.Data.List.Forall2
import Mathlib.Tactic.SplitIfs
import Webroot.Http.Request
import Webroot.Proofs.Http.FieldList
import Webroot.Proofs.Number.Rounding
import Webroot.Proofs.StableSort

/-!
# Preferences in header fields

A client tells what it accepts by **preferences**: tags, each with a weight from 0 to 1 or without
one. They may come in any number of header lines. These are joined to one value, which lists what
the lines list (`Lists.join`). Weights with three places at most are compared as they are written,
although they are rounded when they are read (`byQuality_of_lists`).

Main statement: `Request.acceptLanguage_eq`.
-/

namespace Webroot.Http

open Text

/-! ### Weights -/

/-- A **weight** as a client writes it: a number from 0 to 1 with three places at most. -/
structure Weight where
  whole : Text
  fraction : Text
  whole_ne_nil : whole ≠ []
  all_isDigit : (whole ++ fraction).all Char.isDigit = true
  length_fraction_le : fraction.length ≤ 3
  value_le_one : Nat.ofDigitChars 10 (whole ++ fraction) 0 ≤ Nat.pow 10 fraction.length

namespace Weight

variable (w : Weight)

/-- The places with the point before them, which stands only before places: a weight is not
spelled `0.` or `1.` here, although a point with nothing behind it is allowed in such fields. -/
def places : Text := if w.fraction = [] then [] else '.' :: w.fraction

def text : Text := w.whole ++ w.places

/-- The weight in thousandths. -/
def thousandths : Nat :=
  Nat.ofDigitChars 10 (w.whole ++ w.fraction) 0 * Nat.pow 10 (3 - w.fraction.length)

theorem pow_length_mul_pow :
    Nat.pow 10 w.fraction.length * Nat.pow 10 (3 - w.fraction.length) = 1000 := by
  have hsum : Nat.pow 10 (w.fraction.length + (3 - w.fraction.length)) = 1000 := by
    rw [Nat.add_sub_cancel' w.length_fraction_le]
  rw [← hsum]
  exact (Nat.pow_add 10 _ _).symm

theorem thousandths_le : w.thousandths ≤ 1000 := by
  have h := Nat.mul_le_mul_right (Nat.pow 10 (3 - w.fraction.length)) w.value_le_one
  rwa [w.pow_length_mul_pow] at h

theorem isDigit_of_mem {c : Char} (h : c ∈ w.whole ++ w.fraction) : c.isDigit = true :=
  List.all_eq_true.mp w.all_isDigit c h

theorem isAnyDigit_of_mem {c : Char} (h : c ∈ w.whole ++ w.fraction) : isAnyDigit c = true := by
  have hdigit := w.isDigit_of_mem h
  have hrange : 48 ≤ c.toNat ∧ c.toNat ≤ 57 := by
    simpa [Char.isDigit, UInt32.le_iff_toNat_le] using hdigit
  exact isAnyDigit_of_isDigit (by omega) hdigit

theorem not_mem_of_not_isDigit {c : Char} (hc : c.isDigit = false) : c ∉ w.whole ++ w.fraction := by
  intro hmem
  rw [w.isDigit_of_mem hmem] at hc
  cases hc

theorem cut_text : (cut '.' w.text).getD (w.text, []) = (w.whole, w.fraction) := by
  have hpoint : '.' ∉ w.whole := fun h =>
    w.not_mem_of_not_isDigit (by decide) (List.mem_append_left _ h)
  rw [text, places]
  split_ifs with hfraction
  · rw [List.append_nil, cut_eq_none hpoint, hfraction]
    rfl
  · rw [cut_append_cons hpoint]
    rfl

/-- Reading a weight rounds it. -/
theorem weightUnits_text : weightUnits w.text = Binary64.units w.thousandths 1000 := by
  have hpos : 0 < Nat.pow 10 (3 - w.fraction.length) := Nat.pow_pos (by decide)
  rw [weightUnits, w.cut_text]
  simp only [w.all_isDigit, if_true]
  rw [← Binary64.units_mul_right _ _ hpos, w.pow_length_mul_pow]
  rfl

theorem isWeight_text : isWeight w.text = true := by
  have hwhole : ∀ c ∈ w.whole, isAnyDigit c = true := fun c hc =>
    w.isAnyDigit_of_mem (List.mem_append_left _ hc)
  have hfraction : ∀ c ∈ w.fraction, isAnyDigit c = true := fun c hc =>
    w.isAnyDigit_of_mem (List.mem_append_right _ hc)
  have hfirst : ∀ c ∈ w.places.head?, isAnyDigit c = false := by
    rw [places]
    split_ifs with hnil
    · exact fun c hc => absurd hc (by simp)
    · rintro c ⟨⟩
      decide
  rw [isWeight, text, takeWhile_append_of_first hwhole hfirst,
    dropWhile_append_of_first hwhole hfirst, places]
  split_ifs with hnil
  · simp [w.whole_ne_nil]
  · simpa [w.whole_ne_nil, hnil] using hfraction

/-- A weight behind its mark is read, with blanks in the mark or without. -/
theorem weightOf?_append {gap : Text} (hgap : ∀ c ∈ gap, isBlank c = true) :
    weightOf? (';' :: (gap ++ ("q=" ++ w.text))) = some (Binary64.units w.thousandths 1000) := by
  have hstart : trimStart (gap ++ ("q=" ++ w.text)) = "q=" ++ w.text := by
    rw [trimStart, List.dropWhile_append_of_pos hgap]
    exact trimStart_cons (by decide) _
  rw [weightOf?]
  simp only [hstart, after?_append, w.isWeight_text, w.weightUnits_text, if_true]

theorem weightOf?_text :
    weightOf? (";q=" ++ w.text) = some (Binary64.units w.thousandths 1000) :=
  w.weightOf?_append (List.forall_mem_nil (isBlank · = true))

theorem eq_or_isDigit_of_mem_text {c : Char} (h : c ∈ w.text) : c = '.' ∨ c.isDigit = true := by
  rw [text, places] at h
  split_ifs at h with hnil
  · exact .inr (w.isDigit_of_mem (List.mem_append_left _ (by simpa using h)))
  · rcases List.mem_append.mp h with h | h
    · exact .inr (w.isDigit_of_mem (List.mem_append_left _ h))
    · exact (List.mem_cons.mp h).imp_right fun h => w.isDigit_of_mem (List.mem_append_right _ h)

end Weight

/-! ### Preferences -/

/-- An element is read as its tag and what stands behind it. -/
theorem qualityElement?_append {tag suffix : Text} (hne : tag ≠ [])
    (htag : ∀ c ∈ tag, isQualityTagChar c = true)
    (hfirst : ∀ c ∈ suffix.head?, isQualityTagChar c = false) :
    qualityElement? (tag ++ suffix) = (weightOf? suffix).map fun w => (tag, w) := by
  rw [qualityElement?, takeWhile_append_of_first htag hfirst,
    dropWhile_append_of_first htag hfirst]
  simp [hne]

/-- The characters of tags are no blanks. -/
theorem isBlank_of_isQualityTagChar {c : Char} (h : isQualityTagChar c = true) :
    isBlank c = false := by
  simp only [isQualityTagChar, Bool.not_or, Bool.and_eq_true, Bool.not_eq_true'] at h
  exact h.1.1

/-- Blanks around an element are passed over. -/
theorem qualityElement?_trim {a tag rest : Text} (ha : ∀ c ∈ a, isBlank c = true) (hne : tag ≠ [])
    (htag : ∀ c ∈ tag, isQualityTagChar c = true)
    (hfirst : ∀ c ∈ rest.head?, isQualityTagChar c = false) :
    qualityElement? (trim (a ++ (tag ++ rest))) =
      (weightOf? (trimEnd isBlank rest)).map fun w => (tag, w) := by
  have hplain : ∀ c ∈ tag, isBlank c = false := fun c hc => isBlank_of_isQualityTagChar (htag c hc)
  have hstart : ∀ c ∈ (tag ++ rest).head?, isBlank c = false := by
    obtain ⟨d, tag, rfl⟩ := List.exists_cons_of_ne_nil hne
    rintro c ⟨⟩
    exact hplain d List.mem_cons_self
  have htrim : trim (a ++ (tag ++ rest)) = tag ++ trimEnd isBlank rest := by
    rw [trim, trimBoth, dropWhile_append_of_first ha hstart,
      trimEnd_append_of_last fun c hc => hplain c (List.mem_of_mem_getLast? hc)]
  have hfirst' : ∀ c ∈ (trimEnd isBlank rest).head?, isQualityTagChar c = false := by
    intro c hc
    obtain ⟨u, hu⟩ := trimEnd_prefix isBlank rest
    obtain ⟨t, ht⟩ := List.head?_eq_some_iff.mp hc
    exact hfirst c (by rw [← hu, ht]; rfl)
  rw [htrim, qualityElement?_append hne htag hfirst']

/-- A **preference**: a tag, and the weight that the client gives it if it gives one. -/
structure Preference where
  tag : Text
  weight : Option Weight
  tag_ne_nil : tag ≠ []
  all_isQualityTagChar : tag.all isQualityTagChar = true

namespace Preference

variable (p : Preference)

/-- What stands after the tag. -/
def suffix : Text := match p.weight with
  | none => []
  | some w => ";q=" ++ w.text

def text : Text := p.tag ++ p.suffix

/-- The weight in thousandths. What has no weight is wanted without reserve. -/
def thousandths : Nat := match p.weight with
  | none => 1000
  | some w => w.thousandths

theorem thousandths_le : p.thousandths ≤ 1000 := by
  rw [thousandths]
  cases p.weight with
  | none => exact Nat.le_refl 1000
  | some w => exact w.thousandths_le

theorem isQualityTagChar_of_mem : ∀ c ∈ p.tag, isQualityTagChar c = true :=
  List.all_eq_true.mp p.all_isQualityTagChar

theorem head?_suffix : ∀ c ∈ p.suffix.head?, isQualityTagChar c = false := by
  rw [suffix]
  cases p.weight with
  | none => exact fun c hc => absurd hc (by simp)
  | some w =>
    rintro c ⟨⟩
    decide

theorem weightOf?_suffix :
    weightOf? p.suffix = some (Binary64.units p.thousandths 1000) := by
  rw [suffix, thousandths]
  cases p.weight with
  | none => exact congrArg some (Binary64.units_mul_right 1 1 (by decide : 0 < 1000)).symm
  | some w => exact w.weightOf?_text

/-- A preference is read as its tag and its weight. -/
theorem qualityElement?_text :
    qualityElement? p.text = some (p.tag, Binary64.units p.thousandths 1000) := by
  rw [text, qualityElement?_append p.tag_ne_nil p.isQualityTagChar_of_mem p.head?_suffix,
    p.weightOf?_suffix, Option.map_some]

/-- The text of a preference holds neither white space nor commas. -/
theorem of_mem_text {c : Char} (h : c ∈ p.text) : isBlank c = false ∧ c ≠ ',' := by
  rcases List.mem_append.mp h with h | h
  · have hc := p.isQualityTagChar_of_mem c h
    simp only [isQualityTagChar, Bool.not_or, Bool.and_eq_true, Bool.not_eq_true',
      beq_eq_false_iff_ne] at hc
    exact hc.1
  · rw [suffix] at h
    cases hweight : p.weight with
    | none => simp [hweight] at h
    | some w =>
      rw [hweight] at h
      rcases List.mem_append.mp h with h | h
      · have hall : ∀ d ∈ (";q=" : Text), (!isBlank d && d != ',') = true :=
          List.all_eq_true.mp (by decide)
        simpa using hall c h
      · rcases w.eq_or_isDigit_of_mem_text h with rfl | hdigit
        · decide
        · refine ⟨isBlank_of_isDigit hdigit, ?_⟩
          rintro rfl
          exact absurd hdigit (by decide)

theorem trimmed_text : Trimmed p.text :=
  Trimmed.of_forall fun _ h => (p.of_mem_text h).1

end Preference

/-! ### Lists -/

theorem not_mem_of_isBlank {b : Text} (hb : ∀ c ∈ b, isBlank c = true) : ',' ∉ b := by
  intro h
  exact absurd (hb ',' h) (by decide)

namespace Lists

variable {value value' : Text} {ts ts' : List Text}

/-- The pieces between the commas are what is listed. -/
theorem map_trim_splitOn (h : Lists value ts) (htrim : ∀ t ∈ ts, Trimmed t)
    (hcomma : ∀ t ∈ ts, ',' ∉ t) : (value.splitOn ',').map trim = ts := by
  induction h with
  | @last a t b ha hb =>
    obtain ⟨ht, -⟩ := List.forall_mem_cons.mp htrim
    obtain ⟨hplain, -⟩ := List.forall_mem_cons.mp hcomma
    have hpiece : ',' ∉ a ++ (t ++ b) := by
      simp [not_mem_of_isBlank ha, not_mem_of_isBlank hb, hplain]
    rw [List.splitOn_eq_singleton hpiece, List.map_singleton, trim_append_append ha ht hb]
  | @more a t b value ts ha hb _ ih =>
    obtain ⟨ht, htrim⟩ := List.forall_mem_cons.mp htrim
    obtain ⟨hplain, hcomma⟩ := List.forall_mem_cons.mp hcomma
    have hpiece : ',' ∉ a ++ (t ++ b) := by
      simp [not_mem_of_isBlank ha, not_mem_of_isBlank hb, hplain]
    rw [List.splitOn_append_cons_self, List.splitOn_eq_singleton hpiece, List.singleton_append,
      List.map_cons, trim_append_append ha ht hb, ih htrim hcomma]

/-- Two lists with a comma between them are a list of all. -/
theorem append (h : Lists value ts) (h' : Lists value' ts') :
    Lists (value ++ ',' :: value') (ts ++ ts') := by
  induction h with
  | last ha hb => exact .more ha hb h'
  | more ha hb _ ih =>
    rw [List.append_assoc, List.cons_append]
    exact .more ha hb ih

/-- White space may stand before a list. -/
theorem cons {c : Char} (hc : isBlank c = true) (h : Lists value ts) : Lists (c :: value) ts := by
  cases h with
  | last ha hb => exact .last (List.forall_mem_cons.mpr ⟨hc, ha⟩) hb
  | more ha hb hrest => exact .more (List.forall_mem_cons.mpr ⟨hc, ha⟩) hb hrest

/-- White space lists one empty text. -/
theorem of_blank {a : Text} (ha : ∀ c ∈ a, isBlank c = true) : Lists a [[]] := by
  simpa using Lists.last (t := []) (b := []) ha (List.forall_mem_nil _)

/-- White space before a list may be taken away. -/
theorem trimStart (h : Lists value ts) (htrim : ∀ t ∈ ts, Trimmed t) :
    Lists (Text.trimStart value) ts := by
  cases h with
  | @last a t b ha hb =>
    obtain ⟨ht, -⟩ := List.forall_mem_cons.mp htrim
    rw [Text.trimStart, List.dropWhile_append_of_pos ha]
    cases t with
    | nil => exact of_blank fun c hc => hb c ((List.dropWhile_sublist _).subset hc)
    | cons c t =>
      rw [List.cons_append, ← Text.trimStart, trimStart_cons (ht.first c rfl)]
      exact .last (a := []) (t := c :: t) (List.forall_mem_nil _) hb
  | @more a t b value ts ha hb hrest =>
    obtain ⟨ht, -⟩ := List.forall_mem_cons.mp htrim
    rw [Text.trimStart, List.append_assoc, List.dropWhile_append_of_pos ha]
    cases t with
    | nil =>
      rw [List.nil_append, List.dropWhile_append_of_pos hb, ← Text.trimStart,
        trimStart_cons (by decide)]
      exact (of_blank (List.forall_mem_nil _)).append hrest
    | cons c t =>
      rw [List.cons_append, List.cons_append, ← Text.trimStart, trimStart_cons (ht.first c rfl)]
      exact .more (a := []) (t := c :: t) (List.forall_mem_nil _) hb hrest

/-- White space after a list may be taken away. -/
theorem trimEnd (h : Lists value ts) (htrim : ∀ t ∈ ts, Trimmed t) :
    Lists (Text.trimEnd isBlank value) ts := by
  induction h with
  | @last a t b ha hb =>
    obtain ⟨ht, -⟩ := List.forall_mem_cons.mp htrim
    cases t with
    | nil =>
      have hend := trimEnd_append (t := []) (by simp) (List.forall_mem_append.mpr ⟨ha, hb⟩)
      rw [List.nil_append] at hend
      rw [List.nil_append, hend]
      exact of_blank (List.forall_mem_nil _)
    | cons c t =>
      rw [← List.append_assoc, trimEnd_append (by simpa using ht.last) hb]
      simpa using Lists.last (t := c :: t) ha (List.forall_mem_nil _)
  | @more a t b value ts ha hb hrest ih =>
    obtain ⟨ht, htrim⟩ := List.forall_mem_cons.mp htrim
    rw [trimEnd_append_cons (by decide)]
    exact .more ha hb (ih htrim)

/-- Header lines are trimmed and joined. Their value lists what they list, in order. -/
theorem join {values : List Text} {tss : List (List Text)} (h : List.Forall₂ Lists values tss)
    (hne : values ≠ []) (htrim : ∀ t ∈ tss.flatten, Trimmed t) :
    Lists (Text.join ", " (values.map trim)) tss.flatten := by
  induction h with
  | nil => exact absurd rfl hne
  | @cons value ts values tss hvalue hvalues ih =>
    rw [List.flatten_cons, List.forall_mem_append] at htrim
    have hfirst : Lists (trim value) ts := (hvalue.trimStart htrim.1).trimEnd htrim.1
    cases hvalues with
    | nil => simpa [Text.join] using hfirst
    | @cons value' ts' values tss hvalue' hvalues =>
      have hrest := (ih (List.cons_ne_nil _ _) htrim.2).cons (c := ' ') (by decide)
      rw [List.flatten_cons, List.map_cons, List.map_cons, Text.join, List.append_assoc]
      exact hfirst.append hrest

end Lists

/-- Texts **state** preferences when those that are not empty are their texts. -/
def States (ts : List Text) (ps : List Preference) : Prop :=
  ts.filter (fun t => !t.isEmpty) = ps.map Preference.text

namespace States

variable {ts : List Text} {ps : List Preference} (h : States ts ps)

include h

theorem eq_nil_or_text {t : Text} (ht : t ∈ ts) : t = [] ∨ ∃ p : Preference, t = p.text := by
  by_cases hnil : t = []
  · exact .inl hnil
  · have hmem : t ∈ ts.filter fun t => !t.isEmpty := List.mem_filter.mpr ⟨ht, by simpa using hnil⟩
    rw [h] at hmem
    obtain ⟨p, -, htext⟩ := List.mem_map.mp hmem
    exact .inr ⟨p, htext.symm⟩

theorem trimmed {t : Text} (ht : t ∈ ts) : Trimmed t := by
  rcases h.eq_nil_or_text ht with rfl | ⟨p, rfl⟩
  · exact ⟨by simp, by simp⟩
  · exact p.trimmed_text

theorem not_mem_comma {t : Text} (ht : t ∈ ts) : ',' ∉ t := by
  rcases h.eq_nil_or_text ht with rfl | ⟨p, rfl⟩
  · exact List.not_mem_nil
  · exact fun hcomma => (p.of_mem_text hcomma).2 rfl

/-- A list is read as the preferences in it, in order. What is empty is passed over. -/
theorem qualityElements_eq {value : Text} (hlists : Lists value ts) :
    qualityElements value = ps.map fun p => (p.tag, Binary64.units p.thousandths 1000) := by
  have hparts := hlists.map_trim_splitOn (fun _ => h.trimmed) (fun _ => h.not_mem_comma)
  calc qualityElements value = ts.filterMap qualityElement? := by
        rw [← hparts, List.filterMap_map]
        rfl
    _ = (ts.filter fun t => !t.isEmpty).filterMap qualityElement? := by
        rw [List.filterMap_filter]
        congr 1
        funext t
        cases t <;> rfl
    _ = ps.map fun p => (p.tag, Binary64.units p.thousandths 1000) := by
        rw [h, List.filterMap_map]
        simp only [Function.comp_def, Preference.qualityElement?_text, List.filterMap_eq_map']

end States

/-! ### The order of weights -/

/-- Tags by decreasing weight. Those of equal weight stay in order. -/
def byWeight (es : List (Text × Nat)) : List Text :=
  (es.mergeSort fun a b => b.2 ≤ a.2).map (·.1)

/-- Tags with their weights and positions, by decreasing weight and then by position. -/
def ranked (es : List (Text × Nat)) : List ((Text × Nat) × Nat) :=
  es.zipIdx.mergeSort (List.zipIdxLE fun a b => b.2 ≤ a.2)

section Ranked

variable {es : List (Text × Nat)}

theorem map_ranked (es : List (Text × Nat)) : (ranked es).map (·.1.1) = byWeight es := by
  rw [byWeight, ← List.mergeSort_zipIdx, List.map_map]
  rfl

theorem mem_ranked {e : Text × Nat} {i : Nat} : (e, i) ∈ ranked es ↔ es[i]? = some e := by
  rw [ranked, List.mem_mergeSort, List.mk_mem_zipIdx_iff_getElem?]

theorem pairwise_ranked (es : List (Text × Nat)) :
    (ranked es).Pairwise fun a b => b.1.2 < a.1.2 ∨ a.1.2 = b.1.2 ∧ a.2 < b.2 :=
  pairwise_mergeSort_zipIdx (·.2) es

end Ranked

/-- What a preference says: its tag, and how much it is wanted in thousandths. -/
def Preference.entry (p : Preference) : Text × Nat := (p.tag, p.thousandths)

/-- Rounding does not change the order. -/
theorem byQuality_of_lists {value : Text} {ts : List Text} {ps : List Preference}
    (h : States ts ps) (hlists : Lists value ts) :
    byQuality value = byWeight (ps.map Preference.entry) := by
  rw [byQuality, byWeight, h.qualityElements_eq hlists, ← List.map_mergeSort,
    ← List.map_mergeSort (r := fun p q => decide (q.thousandths ≤ p.thousandths)), List.map_map,
    List.map_map]
  · rfl
  · intro p _ q _
    rfl
  · intro p _ q _
    simp only [Binary64.units_thousandths_le_iff q.thousandths_le p.thousandths_le]

/-! ### Header lines -/

/-- The values of the header lines for a field, in order. -/
def lineValues (lines : List (Text × Text)) (key : Text) : List Text :=
  (lines.filter fun line => Request.fieldName line.1 = key).map (·.2)

theorem lineValues_cons (line : Text × Text) (lines : List (Text × Text)) (key : Text) :
    lineValues (line :: lines) key =
      if Request.fieldName line.1 = key then line.2 :: lineValues lines key
      else lineValues lines key := by
  by_cases h : Request.fieldName line.1 = key <;> simp [lineValues, h]

namespace Request

theorem fields_withField_of_ne {name key : Text} (h : fieldName name ≠ key) (r : Request)
    (value : Text) :
    (r.withField name value).fields.values[key]? = r.fields.values[key]? := by
  rw [withField, RequestFields.getElem?_add, if_neg h]

theorem fields_withField_of_none {r : Request} {name : Text}
    (h : r.fields.values[fieldName name]? = none) (value : Text) :
    (r.withField name value).fields.values[fieldName name]? = some (trim value) := by
  rw [withField, RequestFields.getElem?_add, if_pos rfl, h]
  rfl

theorem fields_withField_of_some {r : Request} {name before : Text}
    (h : r.fields.values[fieldName name]? = some before) (value : Text) :
    (r.withField name value).fields.values[fieldName name]? =
      some (before ++ ", " ++ trim value) := by
  rw [withField, RequestFields.getElem?_add, if_pos rfl, h]
  rfl

/-- More values of a field are joined to the first. -/
theorem fields_withFields_of_some (lines : List (Text × Text)) {key : Text} {r : Request}
    {before : Text} (h : r.fields.values[key]? = some before) :
    (r.withFields lines).fields.values[key]? =
      some (join ", " (before :: (lineValues lines key).map trim)) := by
  induction lines generalizing r before with
  | nil => exact h
  | cons line lines ih =>
    rw [lineValues_cons, withFields, List.foldl_cons, ← withFields]
    split_ifs with hkey
    · subst hkey
      rw [ih (fields_withField_of_some h line.2), join_append_cons, List.map_cons]
    · exact ih ((fields_withField_of_ne hkey r line.2).trans h)

/-- A field of several lines has their values joined. -/
theorem fields_withFields (lines : List (Text × Text)) (key : Text) {r : Request}
    (h : r.fields.values[key]? = none) :
    (r.withFields lines).fields.values[key]? =
      if lineValues lines key = [] then none
      else some (join ", " ((lineValues lines key).map trim)) := by
  induction lines generalizing r with
  | nil => exact h
  | cons line lines ih =>
    rw [lineValues_cons, withFields, List.foldl_cons, ← withFields]
    by_cases hkey : fieldName line.1 = key
    · subst hkey
      rw [if_pos rfl, if_neg (List.cons_ne_nil _ _), List.map_cons]
      exact fields_withFields_of_some lines (fields_withField_of_none h line.2)
    · rw [if_neg hkey]
      exact ih ((fields_withField_of_ne hkey r line.2).trans h)

/-- A request **came with** header lines when these are all that its fields come from. -/
def CameWith (r : Request) (lines : List (Text × Text)) : Prop :=
  ∃ bare : Request, bare.fields = ∅ ∧ r.fields = (bare.withFields lines).fields

/-- **Preferences.** The languages that a client accepts are the tags of its preferences by
decreasing weight, in the order of the header lines where weights are equal. -/
theorem acceptLanguage_eq {r : Request} {lines : List (Text × Text)} {tss : List (List Text)}
    {ps : List Preference} (hcame : r.CameWith lines)
    (hlines : List.Forall₂ Lists (lineValues lines "accept-language") tss)
    (hstates : States tss.flatten ps) :
    r.acceptLanguage = byWeight (ps.map Preference.entry) := by
  obtain ⟨bare, hbare, hfields⟩ := hcame
  have hkey : lower "accept-language" = "accept-language" := by decide
  have hvalue := fields_withFields lines "accept-language" (r := bare) (by simp [hbare])
  rw [acceptLanguage_eq_byQuality, field?, hkey, hfields, hvalue]
  split_ifs with hnil
  · rw [hnil] at hlines
    cases hlines
    have hps : ps = [] := by simpa [States] using hstates
    simp [hps, byWeight]
  · exact byQuality_of_lists hstates (Lists.join hlines hnil fun _ => hstates.trimmed)

end Request

end Webroot.Http
