import Webroot.Http.FieldList
import Webroot.Proofs.Text.Basic

/-!
# Lists of quoted strings in header fields

A list of quoted strings, joined with commas and with any white space around each, is read back as
these strings. The commas and blanks *in* a quoted string do not count, so an element is described
by what it is made of (`Element`): characters other than commas and quotes, and whole quoted
strings. More than quoted strings can stand in a list in this way (`Entry`).

Main statement: `listElements_of_entries`.
-/

namespace Webroot.Http

open Text

/-! ### Elements -/

/-- A quoted string with at least one character is read up to its closing quote. -/
theorem untilQuote_quote {u : Text} (hquote : '"' ∉ u) (hslash : '\\' ∉ u) (rest : Text) :
    untilQuote false (u ++ '"' :: rest) = some (u ++ ['"'], rest) := by
  induction u with
  | nil => rfl
  | cons c u ih =>
    obtain ⟨hc, hquote⟩ : '"' ≠ c ∧ '"' ∉ u := by simpa using hquote
    obtain ⟨hc', hslash⟩ : '\\' ≠ c ∧ '\\' ∉ u := by simpa using hslash
    have hplain : (c == '\\') = false := by simpa using hc'.symm
    rw [List.cons_append, untilQuote, if_neg (by simp [hc.symm]), hplain, Bool.false_and,
      Bool.false_and, ih hquote hslash]
    rfl

theorem quotedRest?_quote {u : Text} (hne : u ≠ []) (hquote : '"' ∉ u) (hslash : '\\' ∉ u)
    (rest : Text) : quotedRest? (u ++ '"' :: rest) = some (u ++ ['"'], rest) := by
  obtain ⟨c, t, rfl⟩ := List.exists_cons_of_ne_nil hne
  have hc : c ≠ '"' := fun h => hquote (by simp [h])
  rw [quotedRest?, if_neg (by simpa using hc), untilQuote_quote hquote hslash]

/-- The text of an **element**: characters other than commas and quotes, and quoted strings that
hold something but neither quotes nor backslashes. -/
inductive Element : Text → Prop
  | nil : Element []
  | plain {c : Char} {e : Text} : c ≠ ',' → c ≠ '"' → Element e → Element (c :: e)
  | quoted {u e : Text} : u ≠ [] → '"' ∉ u → '\\' ∉ u → Element e →
      Element ('"' :: (u ++ '"' :: e))

/-- Elements one after another. -/
theorem Element.append {e f : Text} (he : Element e) (hf : Element f) : Element (e ++ f) := by
  induction he with
  | nil => exact hf
  | plain hcomma hquote _ ih => exact .plain hcomma hquote ih
  | quoted hne hquote hslash _ ih =>
    rw [List.cons_append, List.append_assoc]
    exact .quoted hne hquote hslash ih

/-- White space is part of the element that it stands in. -/
theorem Element.of_blank {e : Text} (h : ∀ c ∈ e, isBlank c = true) : Element e := by
  induction e with
  | nil => exact .nil
  | cons c e ih =>
    obtain ⟨hc, he⟩ := List.forall_mem_cons.mp h
    have hcomma : c ≠ ',' := by
      rintro rfl
      revert hc
      decide
    have hquote : c ≠ '"' := by
      rintro rfl
      revert hc
      decide
    exact .plain hcomma hquote (ih he)

theorem element_comma (rest : Text) : element (',' :: rest) = ([], ',' :: rest) := by
  rw [element, if_pos rfl]

theorem element_of_quotedRest? {r q rest : Text} (h : quotedRest? r = some (q, rest)) :
    element ('"' :: r) = ('"' :: q ++ (element rest).1, (element rest).2) := by
  rw [element, if_neg (by decide), if_pos rfl]
  split
  · simp_all
  · rename_i q' rest' hquoted
    obtain ⟨rfl, rfl⟩ := Prod.mk.inj (Option.some.inj (hquoted.symm.trans h))
    rfl

/-- An element is read up to the comma after it or to the end. -/
theorem element_append_of_element {e : Text} (he : Element e) {rest : Text}
    (hrest : rest = [] ∨ rest.head? = some ',') : element (e ++ rest) = (e, rest) := by
  -- by what the element is made of: the commas in its quoted strings are passed over whole
  induction he with
  | nil =>
    rcases hrest with rfl | hcomma
    · rw [List.nil_append, element]
    · obtain ⟨rest, rfl⟩ := List.head?_eq_some_iff.mp hcomma
      exact element_comma rest
  | plain hcomma hquote _ ih =>
    rw [List.cons_append, element, if_neg hcomma, if_neg hquote, ih]
  | @quoted u e hne hquote hslash _ ih =>
    have hread : quotedRest? (u ++ '"' :: e ++ rest) = some (u ++ ['"'], e ++ rest) := by
      rw [List.append_assoc]
      exact quotedRest?_quote hne hquote hslash _
    rw [List.cons_append, element_of_quotedRest? hread, ih]
    simp

/-! ### Lists -/

theorem rawElements_comma (rest : Text) : rawElements (',' :: rest) = rawElements rest := by
  rw [rawElements]
  split
  · rfl
  · rename_i e es rest' helement
    rw [element_comma] at helement
    cases helement

theorem rawElements_of_element {t e rest : Text} (h : element t = (e, rest)) (hne : e ≠ []) :
    rawElements t = e :: rawElements rest := by
  cases t with
  | nil =>
    rw [element] at h
    exact absurd (Prod.mk.inj h).1.symm hne
  | cons c t =>
    rw [rawElements]
    split
    · rename_i rest' hnil
      rw [h] at hnil
      exact absurd (Prod.mk.inj hnil).1 hne
    · rename_i e' es rest' hcons
      rw [h] at hcons
      obtain ⟨rfl, rfl⟩ := Prod.mk.inj hcons
      rfl

/-- The first element of a list and the elements after the comma. -/
theorem rawElements_append {e : Text} (he : Element e) (hne : e ≠ []) :
    rawElements e = [e] ∧ ∀ rest, rawElements (e ++ ',' :: rest) = e :: rawElements rest := by
  constructor
  · have helement := element_append_of_element he (.inl rfl)
    rw [List.append_nil] at helement
    rw [rawElements_of_element helement hne, rawElements]
  · intro rest
    rw [rawElements_of_element (element_append_of_element he (.inr rfl)) hne, rawElements_comma]

/-- A value **lists** texts when it is these texts joined with commas, with any white space around
each of them. -/
inductive Lists : Text → List Text → Prop
  | last {a t b : Text} : (∀ c ∈ a, isBlank c = true) → (∀ c ∈ b, isBlank c = true) →
      Lists (a ++ (t ++ b)) [t]
  | more {a t b value : Text} {ts : List Text} : (∀ c ∈ a, isBlank c = true) →
      (∀ c ∈ b, isBlank c = true) → Lists value ts → Lists (a ++ (t ++ b) ++ ',' :: value) (t :: ts)

/-- A text is a **quoted string** when it stands in quotes, and what is in the quotes holds
something but neither quotes nor backslashes. -/
def QuotedString (t : Text) : Prop :=
  ∃ u, t = '"' :: (u ++ ['"']) ∧ u ≠ [] ∧ '"' ∉ u ∧ '\\' ∉ u

/-- A text is an **entry** when it can stand in a list: it is an element that is not empty and has
no white space at its ends. -/
structure Entry (t : Text) : Prop where
  ne_nil : t ≠ []
  trimmed : Trimmed t
  element : Element t

/-- What ends in a quote and does not start with white space is an entry if it is an element. -/
theorem Entry.of_quote {t : Text} (h : Element (t ++ ['"']))
    (hfirst : ∀ c ∈ t.head?, isBlank c = false) : Entry (t ++ ['"']) := by
  refine ⟨by simp, ⟨?_, ?_⟩, h⟩
  · cases t with
    | nil =>
      rintro c ⟨⟩
      decide
    | cons c t => exact hfirst
  · rw [List.getLast?_concat]
    rintro c ⟨⟩
    decide

/-- A quoted string is an entry. -/
theorem QuotedString.entry {t : Text} (h : QuotedString t) : Entry t := by
  obtain ⟨u, rfl, hne, hquote, hslash⟩ := h
  refine .of_quote (t := '"' :: u) (.quoted hne hquote hslash .nil) ?_
  rintro c ⟨⟩
  decide

namespace Entry

variable {t : Text} (h : Entry t)

include h

/-- An entry with white space around it is one element. -/
theorem surrounded {a b : Text} (ha : ∀ c ∈ a, isBlank c = true)
    (hb : ∀ c ∈ b, isBlank c = true) : Element (a ++ (t ++ b)) :=
  (Element.of_blank ha).append (h.element.append (Element.of_blank hb))

/-- An element is trimmed to the entry in it, and is kept because that is not empty. -/
theorem trim_cons (rs : List Text) {a b : Text} (ha : ∀ c ∈ a, isBlank c = true)
    (hb : ∀ c ∈ b, isBlank c = true) :
    (((a ++ (t ++ b)) :: rs).map trim).filter (fun e => !e.isEmpty) =
      t :: (rs.map trim).filter fun e => !e.isEmpty := by
  rw [List.map_cons, trim_append_append ha h.trimmed hb, List.filter_cons_of_pos]
  simpa using h.ne_nil

end Entry

/-- **Lists.** A list of entries is read as these entries, in order. -/
theorem listElements_of_entries {value : Text} {ts : List Text} (h : Lists value ts)
    (ht : ∀ t ∈ ts, Entry t) : listElements value = ts := by
  induction h with
  | @last a t b ha hb =>
    have hentry := ht t (List.mem_singleton_self t)
    have hne : a ++ (t ++ b) ≠ [] := by simp [hentry.ne_nil]
    rw [listElements, (rawElements_append (hentry.surrounded ha hb) hne).1,
      hentry.trim_cons [] ha hb]
    rfl
  | @more a t b value ts ha hb _ ih =>
    obtain ⟨hentry, hts⟩ := List.forall_mem_cons.mp ht
    have hne : a ++ (t ++ b) ≠ [] := by simp [hentry.ne_nil]
    rw [listElements, (rawElements_append (hentry.surrounded ha hb) hne).2,
      hentry.trim_cons _ ha hb, ← listElements, ih hts]

theorem listElements_of_lists {value : Text} {ts : List Text} (h : Lists value ts)
    (ht : ∀ t ∈ ts, QuotedString t) : listElements value = ts :=
  listElements_of_entries h fun t hmem => (ht t hmem).entry

end Webroot.Http
