import Mathlib.Data.List.Forall2
import Webroot.Proofs.Http.QualityList
import Webroot.Proofs.Http.RequestFields
import Webroot.Proofs.StableSort

/-!
# Preferences in other letters

Two lists of preferences are **recased** when they differ at most in the case of the letters in
their tags: white space and weights are the same, and so are elements that state no preference.
Which characters make up a tag does not depend on their case (`isQualityTagChar_toLower`). So both
lists state as many preferences, with the same weights and with tags that differ in letter case
alone (`Recased.qualityElements`), and sorting puts them in the same order
(`Request.Recased.acceptLanguage`).
-/

namespace Webroot.Http

open Text

/-! ### Tags -/

theorem isQualityTagChar_of_isAlpha {c : Char} (h : c.isAlpha = true) :
    isQualityTagChar c = true := by
  have hcomma : c ≠ ',' := by
    rintro rfl
    cases h
  have hsemicolon : c ≠ ';' := by
    rintro rfl
    cases h
  simp [isQualityTagChar, isBlank_of_isAlpha h, hcomma, hsemicolon]

theorem isQualityTagChar_toLower (c : Char) : isQualityTagChar c.toLower = isQualityTagChar c :=
  apply_toLower (fun _ => isQualityTagChar_of_isAlpha) c

/-- A tag in other letters is a tag. -/
theorem isQualityTagChar_of_sameLetters {tag tag' : Text} (h : SameLetters tag tag')
    (htag : ∀ c ∈ tag, isQualityTagChar c = true) : ∀ c ∈ tag', isQualityTagChar c = true := by
  intro c hc
  have hlower : c.toLower ∈ lower tag := by
    rw [h]
    exact List.mem_map_of_mem hc
  obtain ⟨d, hd, hsame⟩ := List.mem_map.mp hlower
  rw [← isQualityTagChar_toLower, ← hsame, isQualityTagChar_toLower]
  exact htag d hd

/-! ### Elements -/

/-- Two elements are **recased** when they differ at most in the case of the letters in the tag:
that is what stands first in an element, behind white space. -/
inductive RecasedElement : Text → Text → Prop
  | intro (blanks tag tag' rest : Text) : (∀ c ∈ blanks, isBlank c = true) →
      (∀ c ∈ tag, isQualityTagChar c = true) → (∀ c ∈ rest.head?, isQualityTagChar c = false) →
      SameLetters tag tag' → RecasedElement (blanks ++ (tag ++ rest)) (blanks ++ (tag' ++ rest))

/-- An element may stay as it is. -/
theorem RecasedElement.refl (p : Text) : RecasedElement p p := by
  have hblanks : ∀ c ∈ p.takeWhile isBlank, isBlank c = true := fun _ => List.mem_takeWhile_imp
  have htag : ∀ c ∈ (p.dropWhile isBlank).takeWhile isQualityTagChar, isQualityTagChar c = true :=
    fun _ => List.mem_takeWhile_imp
  have hfirst : ∀ c ∈ ((p.dropWhile isBlank).dropWhile isQualityTagChar).head?,
      isQualityTagChar c = false := by
    intro c hc
    have hhead := List.head?_dropWhile_not isQualityTagChar (p.dropWhile isBlank)
    rw [Option.mem_def.mp hc] at hhead
    simpa using hhead
  have h := RecasedElement.intro _ _ _ _ hblanks htag hfirst rfl
  rwa [List.takeWhile_append_dropWhile, List.takeWhile_append_dropWhile] at h

/-- Two preferences are **recased** when their weights are the same, and their tags but for letter
case. -/
def RecasedEntry (e e' : Text × Nat) : Prop := SameLetters e.1 e'.1 ∧ e.2 = e'.2

theorem optionRel_recasedEntry {tag tag' : Text} (h : SameLetters tag tag') (w : Option Nat) :
    Option.Rel RecasedEntry (w.map fun w => (tag, w)) (w.map fun w => (tag', w)) := by
  cases w with
  | none => exact .none
  | some w => exact .some ⟨h, rfl⟩

theorem RecasedElement.qualityElement? {p p' : Text} (h : RecasedElement p p') :
    Option.Rel RecasedEntry (qualityElement? (trim p)) (qualityElement? (trim p')) := by
  obtain ⟨blanks, tag, tag', rest, hblanks, htag, hfirst, hsame⟩ := h
  by_cases hnil : tag = []
  · -- without a tag there are no letters that could differ
    subst hnil
    obtain rfl : tag' = [] := List.map_eq_nil_iff.mp (Eq.symm hsame)
    cases Http.qualityElement? (trim (blanks ++ ([] ++ rest))) with
    | none => exact .none
    | some e => exact .some ⟨rfl, rfl⟩
  · have hnil' : tag' ≠ [] := by
      rintro rfl
      exact hnil (List.map_eq_nil_iff.mp hsame)
    rw [qualityElement?_trim hblanks hnil htag hfirst, qualityElement?_trim hblanks hnil'
      (isQualityTagChar_of_sameLetters hsame htag) hfirst]
    exact optionRel_recasedEntry hsame _

/-! ### Lists -/

/-- Two lists are **recased** when their elements are, one by one. -/
def Recased (value value' : Text) : Prop :=
  List.Forall₂ RecasedElement (value.splitOn ',') (value'.splitOn ',')

namespace Recased

variable {value value' : Text} (h : Recased value value')

include h

/-- Recased lists state recased preferences. -/
theorem qualityElements :
    List.Forall₂ RecasedEntry (qualityElements value) (qualityElements value') :=
  List.rel_filterMap (fun _ _ hp => hp.qualityElement?) h

/-- Their tags come in the same order. -/
theorem byQuality : List.Forall₂ SameLetters (byQuality value) (byQuality value') := by
  have hsorted : List.Forall₂ RecasedEntry
      ((Http.qualityElements value).mergeSort fun a b => b.2 ≤ a.2)
      ((Http.qualityElements value').mergeSort fun a b => b.2 ≤ a.2) := by
    refine forall₂_mergeSort ?_ h.qualityElements
    rintro a b x y ⟨-, hax⟩ ⟨-, hby⟩
    rw [hax, hby]
  exact List.rel_map (fun _ _ he => he.1) hsorted

end Recased

/-! ### Requests -/

/-- Two requests are **recased** when they differ at most in the case of the letters in the tags of
the accept-language field. -/
structure Request.Recased (r r' : Request) : Prop where
  parts : r' = { r with fields := r'.fields }
  fields : ∀ name, ¬SameLetters name "accept-language" → r.field? name = r'.field? name
  languages : Option.Rel Http.Recased (r.field? "accept-language") (r'.field? "accept-language")

/-- A first accept-language line in other letters gives a recased request. -/
theorem Request.recased_withField {r : Request} {name value value' : Text}
    (hname : fieldName name = "accept-language") (hnone : r.field? "accept-language" = none)
    (h : Http.Recased (trim value) (trim value')) :
    (r.withField name value).Recased (r.withField name value') := by
  have hkey : fieldName name = lower "accept-language" := hname.trans (by decide)
  rw [field?, ← hkey] at hnone
  refine ⟨rfl, fun name' hne => ?_, ?_⟩
  · have hother : fieldName name ≠ lower name' := fun heq => hne (heq.symm.trans hkey)
    rw [field?, field?, fields_withField_of_ne hother, fields_withField_of_ne hother]
  · rw [field?, field?, ← hkey, fields_withField_of_none hnone, fields_withField_of_none hnone]
    exact .some h

/-- Recased requests accept the same languages in the same order, but for letter case. -/
theorem Request.Recased.acceptLanguage {r r' : Request} (h : r.Recased r') :
    List.Forall₂ SameLetters r.acceptLanguage r'.acceptLanguage := by
  have hvalues := h.languages
  rw [acceptLanguage_eq_byQuality, acceptLanguage_eq_byQuality]
  generalize r.field? "accept-language" = value at hvalues ⊢
  generalize r'.field? "accept-language" = value' at hvalues ⊢
  cases hvalues with
  | none => exact .nil
  | some hvalue => exact hvalue.byQuality

end Webroot.Http
