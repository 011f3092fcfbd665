import Webroot.Proofs.Http.FieldList

/-!
# Lists of entity tags

A client sends the tags that it knows in one list: each is a text in quotes, and has `W/` in front
if it is weak. Such a list is cut at its commas, but not at those in the quotes. For that a quoted
string has to be told from the space between two of them, and the reader takes a quote as an opening
one only if the next character is none. The tag without any text, which is two quotes, is therefore
never read (`not_mem_listElements`): its second quote is taken as the opening quote of a string that
holds the comma after it, and all quotes that follow change their sides.

Main statements: `listElements_tags_iff`, and `not_forall_listElements_tags` for a list that begins
with the tag without any text.
-/

namespace Webroot.Http

open Text

/-- An **entity tag** as it is written in a list: a text in quotes, after `W/` if the tag is weak.
The text may hold commas and blanks, and may be empty. -/
structure WrittenTag where
  weak : Bool
  inner : Text
  quote_not_mem : '"' ∉ inner
  slash_not_mem : '\\' ∉ inner

namespace WrittenTag

variable (tag : WrittenTag)

/-- What stands before the quotes. -/
def mark : Text := if tag.weak then "W/" else []

def text : Text := tag.mark ++ '"' :: (tag.inner ++ ['"'])

theorem quote_not_mem_mark : '"' ∉ tag.mark := by
  rw [mark]
  split <;> decide

theorem element_mark : Element tag.mark := by
  rw [mark]
  split
  · exact .plain (by decide) (by decide) (.plain (by decide) (by decide) .nil)
  · exact .nil

/-- A tag with a text can stand in a list. -/
theorem entry (h : tag.inner ≠ []) : Entry tag.text := by
  have hquoted : Element ('"' :: (tag.inner ++ '"' :: [])) :=
    .quoted h tag.quote_not_mem tag.slash_not_mem .nil
  have htext : tag.text = (tag.mark ++ '"' :: tag.inner) ++ ['"'] := by
    rw [text, List.append_assoc, List.cons_append]
  rw [htext]
  refine .of_quote ?_ ?_
  · rw [← htext]
    exact tag.element_mark.append hquoted
  · rw [mark]
    split
    · rintro c ⟨⟩
      decide
    · rintro c ⟨⟩
      decide

end WrittenTag

/-! ### Quotes in elements -/

/-- The rest of a quoted string, after its opening quote, begins with another character. -/
theorem exists_cons_of_quotedRest? {r q rest : Text} (h : quotedRest? r = some (q, rest)) :
    ∃ c q', q = c :: q' ∧ c ≠ '"' := by
  rw [quotedRest?] at h
  split at h
  · cases h
  · rename_i hfirst
    cases r with
    | nil => cases h
    | cons c r =>
      have hc : c ≠ '"' := fun hc => hfirst (congrArg some hc)
      rw [untilQuote, if_neg (by simp [hc])] at h
      obtain ⟨⟨q', rest'⟩, -, heq⟩ := Option.map_eq_some_iff.mp h
      exact ⟨c, q', (Prod.mk.inj heq).1.symm, hc⟩

/-- The first quote in an element is never followed by another one. -/
theorem element_ne_quotes (t : Text) {u : Text} (hu : '"' ∉ u) (v : Text) :
    (element t).1 ≠ u ++ '"' :: '"' :: v := by
  -- along the characters that stand before the first quote
  fun_induction element t generalizing u with
  | case1 => simp
  | case2 => simp
  | case3 => simp
  | case4 r q rest hquoted _ _ =>
    intro heq
    cases u with
    | nil =>
      obtain ⟨c, q', rfl, hc⟩ := exists_cons_of_quotedRest? hquoted
      exact hc (List.cons.inj (List.cons.inj heq).2).1
    | cons c u =>
      obtain ⟨rfl, -⟩ := List.cons.inj heq
      exact hu List.mem_cons_self
  | case5 c r hcomma hquote ih =>
    intro heq
    cases u with
    | nil => exact hquote (List.cons.inj heq).1
    | cons d u => exact ih (fun hmem => hu (List.mem_cons_of_mem _ hmem)) (List.cons.inj heq).2

/-- Every element of a list is read at some place of its value. -/
theorem exists_element_of_mem_rawElements {value e : Text} (h : e ∈ rawElements value) :
    ∃ t, (element t).1 = e := by
  fun_induction rawElements value with
  | case1 => cases h
  | case2 c r rest helement ih => exact ih h
  | case3 c r e' es rest helement ih =>
    rcases List.mem_cons.mp h with rfl | h
    · exact ⟨c :: r, by rw [helement]⟩
    · exact ih h

/-- No element that is read from a list has nothing between its first two quotes. -/
theorem not_mem_listElements {u : Text} (hu : '"' ∉ u) (v value : Text) :
    u ++ '"' :: '"' :: v ∉ listElements value := by
  intro h
  obtain ⟨e, he, htrim⟩ := List.mem_map.mp (List.mem_filter.mp h).1
  obtain ⟨t, ht⟩ := exists_element_of_mem_rawElements he
  obtain ⟨a, b, ha, -, heq⟩ := exists_eq_append_trim e
  -- the white space that was taken away at the start holds no quote either
  have hau : '"' ∉ a ++ u := by
    rw [List.mem_append, not_or]
    exact ⟨fun hmem => absurd (ha _ hmem) (by decide), hu⟩
  refine element_ne_quotes t hau (v ++ b) ?_
  rw [ht, heq, htrim]
  simp

/-! ### Lists of tags -/

/-- **Lists of tags.** When a value lists tags, with any white space around each of them, it is read
as these tags, in order, exactly when none of them is without any text. -/
theorem listElements_tags_iff {value : Text} {tags : List WrittenTag}
    (h : Lists value (tags.map WrittenTag.text)) :
    listElements value = tags.map WrittenTag.text ↔ ∀ tag ∈ tags, tag.inner ≠ [] := by
  constructor
  · intro heq tag htag hinner
    have hmem : tag.text ∈ listElements value := by
      rw [heq]
      exact List.mem_map_of_mem htag
    rw [WrittenTag.text, hinner] at hmem
    exact not_mem_listElements tag.quote_not_mem_mark [] value hmem
  · intro hinner
    refine listElements_of_entries h fun t ht => ?_
    obtain ⟨tag, htag, rfl⟩ := List.mem_map.mp ht
    exact tag.entry (hinner tag htag)

/-- A weak tag with a comma and a blank in its text. -/
def weakTag : WrittenTag := ⟨true, "a, b", by decide, by decide⟩

/-- A tag that is a single letter. -/
def letterTag : WrittenTag := ⟨false, "c", by decide, by decide⟩

theorem listElements_tags_iff_weakTag :
    listElements "W/\"a, b\" ,\t\"c\"" = (["W/\"a, b\"", "\"c\""] : List Text) := by
  have hblank : ∀ c ∈ ([' '] : Text), isBlank c = true := List.all_eq_true.mp (by decide)
  have htab : ∀ c ∈ (['\t'] : Text), isBlank c = true := List.all_eq_true.mp (by decide)
  have hlists : Lists ([] ++ (weakTag.text ++ [' ']) ++ ',' :: (['\t'] ++ (letterTag.text ++ [])))
      ([weakTag, letterTag].map WrittenTag.text) :=
    .more (by simp) hblank (.last htab (by simp))
  refine (listElements_tags_iff hlists).mpr ?_
  rw [List.forall_mem_cons, List.forall_mem_singleton]
  exact ⟨by decide, by decide⟩

/-- The tag without any text. -/
def emptyTag : WrittenTag := ⟨false, [], by decide, by decide⟩

/-- A tag with a comma in its text. -/
def commaTag : WrittenTag := ⟨false, "a,b", by decide, by decide⟩

/-- The elements of a list of tags need not be these tags, also when all its blanks are spaces and
tabs. -/
theorem not_forall_listElements_tags :
    ¬∀ (value : Text) (tags : List WrittenTag), Lists value (tags.map WrittenTag.text) →
      PlainBlanks value → listElements value = tags.map WrittenTag.text := by
  intro h
  have hlists : Lists ([] ++ (emptyTag.text ++ []) ++ ',' :: ([] ++ (commaTag.text ++ [])))
      ([emptyTag, commaTag].map WrittenTag.text) :=
    .more (by simp) (by simp) (.last (by simp) (by simp))
  exact absurd (h _ _ hlists (by decide)) (by decide +kernel)

end Webroot.Http
