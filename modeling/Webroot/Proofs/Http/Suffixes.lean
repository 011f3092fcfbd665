import Mathlib
import Webroot.Http.MediaType
import Webroot.Proofs.Text.Basic

/-!
# Suffixes as parts of a name

The suffixes of a name are read from its end, character by character. Here they are described by
what the name is put together from: a name has a primary suffix when it ends in a dot and a
**word**, and a secondary one when it ends in a dot, a word, another dot and a **tag**. Neither a
word nor a tag holds a dot, so there is one way only to take a name apart like that. Neither holds
a slash, so the suffixes of a path are those of the name behind any of its slashes.

Main statements: `primarySuffix?_eq_some_iff`, `secondarySuffix?_eq_some_iff` and
`sameSuffixes_append_slash`.
-/

namespace Webroot

/-! ### Letter case -/

namespace Text

@[simp]
theorem lower_lower (t : Text) : lower (lower t) = lower t := by
  simp [lower]

theorem dot_not_mem_lower {t : Text} (h : '.' ∉ t) : '.' ∉ lower t := by
  intro hmem
  obtain ⟨c, hc, hdot⟩ := List.mem_map.mp hmem
  by_cases hupper : c.isUpper = true
  · -- a dot is no small letter
    have hsmall := Char.isLower_toLower_eq_isAlpha c
    rw [hdot, Char.isAlpha, hupper, Bool.true_or] at hsmall
    cases hsmall
  · rw [Char.toLower_eq_of_not_isUpper hupper] at hdot
    exact h (hdot ▸ hc)

end Text

namespace Http

open Text

/-! ### Words and tags -/

/-- A text is **made of** characters of a kind when it holds some of them and no others. -/
structure MadeOf (p : Char → Bool) (t : Text) : Prop where
  ne_nil : t ≠ []
  all : ∀ c ∈ t, p c = true

theorem isWordChar_dot : isWordChar '.' = false := by decide

theorem isTagChar_dot : isTagChar '.' = false := by decide

theorem isTagChar_of_isWordChar {c : Char} (h : isWordChar c = true) : isTagChar c = true := by
  rw [isTagChar, h, Bool.true_or]

/-- A word is a tag. -/
theorem MadeOf.isTagChar {w : Text} (h : MadeOf isWordChar w) : MadeOf isTagChar w :=
  ⟨h.ne_nil, fun c hc => isTagChar_of_isWordChar (h.all c hc)⟩

/-- Characters of other kinds are not in it. -/
theorem MadeOf.not_mem {p : Char → Bool} {c : Char} (hc : p c = false) {w : Text}
    (h : MadeOf p w) : c ∉ w := by
  intro hmem
  rw [h.all c hmem] at hc
  cases hc

/-- What is taken off the end of a name is all that stands after the last dot, if that is made of
characters of the kind. -/
theorem takeSuffix?_eq_some_iff {p : Char → Bool} (hdot : p '.' = false)
    {reversed w rest : Text} :
    takeSuffix? p reversed = some (w, rest) ↔
      reversed = w.reverse ++ '.' :: rest ∧ MadeOf p w := by
  constructor
  · intro h
    rw [takeSuffix?] at h
    split at h
    · rename_i c v rest' htake hdrop
      obtain ⟨rfl, rfl⟩ := Prod.mk.inj (Option.some.inj h)
      have hall : ∀ d ∈ c :: v, p d = true := by
        rw [← htake]
        exact List.all_eq_true.mp List.all_takeWhile
      refine ⟨?_, by simp, fun d hd => hall d (List.mem_reverse.mp hd)⟩
      rw [List.reverse_reverse, ← htake, ← hdrop, List.takeWhile_append_dropWhile]
    · cases h
  · rintro ⟨rfl, hw⟩
    have hall : ∀ c ∈ w.reverse, p c = true := fun c hc => hw.all c (List.mem_reverse.mp hc)
    have hstop : ∀ c ∈ ('.' :: rest).head?, p c = false := by
      rintro c ⟨⟩
      exact hdot
    obtain ⟨c, v, hcons⟩ := List.exists_cons_of_ne_nil (List.reverse_ne_nil_iff.mpr hw.ne_nil)
    have hback : w = (c :: v).reverse := by rw [← hcons, List.reverse_reverse]
    rw [takeSuffix?, takeWhile_append_of_first hall hstop, dropWhile_append_of_first hall hstop,
      hcons, hback]
    rfl

/-! ### The two suffixes of a name -/

/-- A name has a primary suffix when it ends in a dot and a word. -/
theorem primarySuffix?_eq_some_iff {name s : Text} :
    primarySuffix? name = some s ↔
      ∃ before w, name = before ++ '.' :: w ∧ MadeOf isWordChar w ∧ s = lower w := by
  rw [primarySuffix?, Option.map_eq_some_iff]
  constructor
  · rintro ⟨⟨w, rest⟩, htake, rfl⟩
    obtain ⟨hname, hw⟩ := (takeSuffix?_eq_some_iff isWordChar_dot).mp htake
    refine ⟨rest.reverse, w, ?_, hw, rfl⟩
    rw [← List.reverse_inj, hname]
    simp
  · rintro ⟨before, w, rfl, hw, rfl⟩
    refine ⟨(w, before.reverse), (takeSuffix?_eq_some_iff isWordChar_dot).mpr ⟨?_, hw⟩, rfl⟩
    simp

/-- A name has a secondary suffix when it ends in a dot, a word, another dot and a tag. -/
theorem secondarySuffix?_eq_some_iff {name s : Text} :
    secondarySuffix? name = some s ↔
      ∃ before w tag, name = before ++ '.' :: (w ++ '.' :: tag) ∧ MadeOf isWordChar w ∧
        MadeOf isTagChar tag ∧ s = lower w := by
  simp only [secondarySuffix?, Option.bind_eq_some_iff, Option.map_eq_some_iff]
  constructor
  · rintro ⟨⟨tag, rest⟩, htag, ⟨w, rest'⟩, hword, rfl⟩
    obtain ⟨hname, hmade⟩ := (takeSuffix?_eq_some_iff isTagChar_dot).mp htag
    obtain ⟨rfl, hw⟩ := (takeSuffix?_eq_some_iff isWordChar_dot).mp hword
    refine ⟨rest'.reverse, w, tag, ?_, hw, hmade, rfl⟩
    rw [← List.reverse_inj, hname]
    simp
  · rintro ⟨before, w, tag, rfl, hw, htag, rfl⟩
    refine ⟨(tag, w.reverse ++ '.' :: before.reverse),
      (takeSuffix?_eq_some_iff isTagChar_dot).mpr ⟨?_, htag⟩, (w, before.reverse),
      (takeSuffix?_eq_some_iff isWordChar_dot).mpr ⟨rfl, hw⟩, rfl⟩
    simp

/-- A name is cut at its last dot in one way only, and a path at its last slash. -/
theorem eq_of_append_cons_eq {sep : Char} {a b t u : Text} (ht : sep ∉ t) (hu : sep ∉ u)
    (h : a ++ sep :: t = b ++ sep :: u) : t = u := by
  have hcut : ∀ {a t : Text}, sep ∉ t →
      cut sep (a ++ sep :: t).reverse = some (t.reverse, a.reverse) := by
    intro a t ht
    rw [List.reverse_append, List.reverse_cons, List.append_assoc, List.singleton_append]
    exact cut_append_cons (by simpa using ht) a.reverse
  have hsame := (hcut ht).symm.trans (h ▸ hcut hu)
  exact List.reverse_inj.mp (Prod.mk.inj (Option.some.inj hsame)).1

/-- The word after the last dot of a name is its primary suffix. -/
theorem primarySuffix?_append (before : Text) {w : Text} (hw : MadeOf isWordChar w) :
    primarySuffix? (before ++ '.' :: w) = some (lower w) :=
  primarySuffix?_eq_some_iff.mpr ⟨before, w, rfl, hw, rfl⟩

/-- What stands after the last dot is no primary suffix when it holds other characters than those of
words. -/
theorem primarySuffix?_eq_none {before t : Text} (hdot : '.' ∉ t) {c : Char} (hc : c ∈ t)
    (hword : isWordChar c = false) : primarySuffix? (before ++ '.' :: t) = none := by
  rw [Option.eq_none_iff_forall_ne_some]
  intro s hs
  obtain ⟨before', w, hname, hw, -⟩ := primarySuffix?_eq_some_iff.mp hs
  obtain rfl := eq_of_append_cons_eq hdot (hw.not_mem isWordChar_dot) hname
  rw [hw.all c hc] at hword
  cases hword

/-- A word that was the primary suffix of a name is the secondary one when a tag is put after it. -/
theorem secondarySuffix?_append {base s : Text} (hs : primarySuffix? base = some s) {tag : Text}
    (htag : MadeOf isTagChar tag) : secondarySuffix? (base ++ '.' :: tag) = some s := by
  obtain ⟨before, w, rfl, hw, rfl⟩ := primarySuffix?_eq_some_iff.mp hs
  refine secondarySuffix?_eq_some_iff.mpr ⟨before, w, tag, ?_, hw, htag, rfl⟩
  rw [List.append_assoc, List.cons_append]

/-- The primary suffix of a name comes before the secondary one. -/
theorem findSome?_suffixes {α : Type} (f : Text → Option α) (name : Text) :
    (suffixes name).findSome? f =
      ((primarySuffix? name).bind f).or ((secondarySuffix? name).bind f) := by
  have hone : ∀ o : Option Text, o.toList.findSome? f = o.bind f := by
    intro o
    cases o with
    | none => rfl
    | some s => simp
  rw [suffixes, List.findSome?_append, hone, hone]

/-- No suffix holds a dot, and each is in lower case. -/
theorem lowered_of_suffix {name s : Text}
    (h : primarySuffix? name = some s ∨ secondarySuffix? name = some s) :
    '.' ∉ s ∧ lower s = s := by
  obtain ⟨w, hw, rfl⟩ : ∃ w, MadeOf isWordChar w ∧ s = lower w := by
    rcases h with h | h
    · obtain ⟨-, w, -, hw, hs⟩ := primarySuffix?_eq_some_iff.mp h
      exact ⟨w, hw, hs⟩
    · obtain ⟨-, w, -, -, hw, -, hs⟩ := secondarySuffix?_eq_some_iff.mp h
      exact ⟨w, hw, hs⟩
  exact ⟨dot_not_mem_lower (hw.not_mem isWordChar_dot), lower_lower w⟩

/-! ### The suffixes of a path -/

theorem isWordChar_slash : isWordChar '/' = false := by decide

theorem isTagChar_slash : isTagChar '/' = false := by decide

/-- What stands at the end of a path and holds no slash stands at the end of its last name. -/
theorem exists_eq_append_of_slash {dir name before t : Text} (ht : '/' ∉ t)
    (h : dir ++ '/' :: name = before ++ t) : ∃ before', name = before' ++ t := by
  have hend : t <:+ dir ++ '/' :: name := ⟨before, h.symm⟩
  rcases List.suffix_or_suffix_of_suffix hend (List.suffix_append dir ('/' :: name)) with
    hshort | hlong
  · -- what is no longer than the slash and the name does not begin with the slash
    rcases List.suffix_cons_iff.mp hshort with rfl | ⟨before', hname⟩
    · exact absurd List.mem_cons_self ht
    · exact ⟨before', hname.symm⟩
  · exact absurd (hlong.subset List.mem_cons_self) ht

/-- The primary suffix does not reach across a slash. -/
theorem primarySuffix?_append_slash (dir name : Text) :
    primarySuffix? (dir ++ '/' :: name) = primarySuffix? name := by
  ext s
  rw [primarySuffix?_eq_some_iff, primarySuffix?_eq_some_iff]
  constructor
  · rintro ⟨before, w, hpath, hw, hs⟩
    have hslash : '/' ∉ '.' :: w := by simpa using hw.not_mem isWordChar_slash
    obtain ⟨before', hname⟩ := exists_eq_append_of_slash hslash hpath
    exact ⟨before', w, hname, hw, hs⟩
  · rintro ⟨before, w, rfl, hw, hs⟩
    exact ⟨dir ++ '/' :: before, w, by simp, hw, hs⟩

/-- Nor does the secondary suffix, although it spans two dots. -/
theorem secondarySuffix?_append_slash (dir name : Text) :
    secondarySuffix? (dir ++ '/' :: name) = secondarySuffix? name := by
  ext s
  rw [secondarySuffix?_eq_some_iff, secondarySuffix?_eq_some_iff]
  constructor
  · rintro ⟨before, w, tag, hpath, hw, htag, hs⟩
    have hslash : '/' ∉ '.' :: (w ++ '.' :: tag) := by
      simpa using And.intro (hw.not_mem isWordChar_slash) (htag.not_mem isTagChar_slash)
    obtain ⟨before', hname⟩ := exists_eq_append_of_slash hslash hpath
    exact ⟨before', w, tag, hname, hw, htag, hs⟩
  · rintro ⟨before, w, tag, rfl, hw, htag, hs⟩
    exact ⟨dir ++ '/' :: before, w, tag, by simp, hw, htag, hs⟩

/-- Two names **have the same suffixes** when they agree in the primary and in the secondary one. -/
structure SameSuffixes (a b : Text) : Prop where
  primary : primarySuffix? a = primarySuffix? b
  secondary : secondarySuffix? a = secondarySuffix? b

namespace SameSuffixes

variable {a b c : Text}

theorem symm (h : SameSuffixes a b) : SameSuffixes b a :=
  ⟨h.primary.symm, h.secondary.symm⟩

theorem trans (h : SameSuffixes a b) (h' : SameSuffixes b c) : SameSuffixes a c :=
  ⟨h.primary.trans h'.primary, h.secondary.trans h'.secondary⟩

theorem suffixes_eq (h : SameSuffixes a b) : suffixes a = suffixes b := by
  rw [suffixes, suffixes, h.primary, h.secondary]

/-- The media type is chosen by the suffixes. -/
theorem mediaType_eq (h : SameSuffixes a b) : mediaType a = mediaType b := by
  rw [mediaType, mediaType, h.suffixes_eq]

end SameSuffixes

/-- A path has the suffixes of the name behind a slash in it. -/
theorem sameSuffixes_append_slash (dir name : Text) : SameSuffixes (dir ++ '/' :: name) name :=
  ⟨primarySuffix?_append_slash dir name, secondarySuffix?_append_slash dir name⟩

end Http

end Webroot
