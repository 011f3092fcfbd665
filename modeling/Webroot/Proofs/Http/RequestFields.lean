import Webroot.Proofs.Http.QualityList
import Webroot.Proofs.Http.Suffixes

/-!
# Fields of a request

The fields of a request are kept under names that are trimmed and in lower case. What is kept is
compared with the header lines that it came from: the values **given** to a name are those of the
lines with that name, in order. One line changes one name (`RequestFields.getElem?_add`), so lines
with different names may change places (`RequestFields.add_add_comm`).

The names of the lines are trimmed, but a name that is looked up is not: with white space around it
nothing is found, whatever the lines are (`Request.field?_of_not_trimmed`).

Main statements: `Request.fields_of_lines`, and `Request.not_forall_field?_trim` for names with
white space around them.
-/

namespace Webroot

open Http

namespace Text

/-! ### White space and letter case -/

/-- What is the same for all letters does not look at their case. -/
theorem apply_toLower {p : Char → Bool} {b : Bool} (h : ∀ c : Char, c.isAlpha = true → p c = b)
    (c : Char) : p c.toLower = p c := by
  by_cases hupper : c.isUpper = true
  · -- a capital is a letter, and so is its small letter
    have hcapital : c.isAlpha = true := by rw [Char.isAlpha, hupper, Bool.true_or]
    have hsmall : c.toLower.isAlpha = true := by
      rw [Char.isAlpha, Char.isLower_toLower_eq_isAlpha, hcapital, Bool.or_true]
    rw [h _ hcapital, h _ hsmall]
  · rw [Char.toLower_eq_of_not_isUpper hupper]

theorem isBlank_of_isAlpha {c : Char} (h : c.isAlpha = true) : isBlank c = false := by
  have hrange : 65 ≤ c.toNat ∧ c.toNat ≤ 90 ∨ 97 ≤ c.toNat ∧ c.toNat ≤ 122 := by
    simpa [Char.isAlpha, Char.isUpper, Char.isLower, UInt32.le_iff_toNat_le] using h
  simp [isBlank, whiteSpace, CharSet.has]
  omega

theorem isBlank_toLower (c : Char) : isBlank c.toLower = isBlank c :=
  apply_toLower (fun _ => isBlank_of_isAlpha) c

/-- Trimming does not look at the case of letters. -/
theorem trim_lower (t : Text) : trim (lower t) = lower (trim t) := by
  have hblank : isBlank ∘ Char.toLower = isBlank := funext isBlank_toLower
  simp only [trim, trimBoth, trimEnd, lower, List.dropWhile_map, ← List.map_reverse, hblank]

theorem trim_trim (t : Text) : trim (trim t) = trim t := by
  obtain ⟨a, b, ha, hb, ht⟩ := exists_eq_append_trim t
  have h := trim_append_append_of_blank ha hb (trim t)
  rw [← ht] at h
  exact h.symm

/-- A text that is as long as what trimming leaves of it is trimmed. -/
theorem trim_eq_self_of_length {t : Text} (h : t.length ≤ (trim t).length) : trim t = t := by
  obtain ⟨a, b, -, -, ht⟩ := exists_eq_append_trim t
  have hlength := congrArg List.length ht
  simp only [List.length_append] at hlength
  have ha : a = [] := List.eq_nil_of_length_eq_zero (by omega)
  have hb : b = [] := List.eq_nil_of_length_eq_zero (by omega)
  rw [ha, hb, List.nil_append, List.append_nil] at ht
  exact ht.symm

end Text

namespace Http

open Text

/-- The values that header lines **give** to a name: those of the lines that have this name, in any
case and with white space around it, in order and trimmed. -/
def givenValues (lines : List (Text × Text)) (name : Text) : List Text :=
  (lines.filter fun line => SameLetters (trim line.1) name).map fun line => trim line.2

/-- The lines that give a value to a name are those with its key. -/
theorem givenValues_eq (lines : List (Text × Text)) (name : Text) :
    givenValues lines name = (lineValues lines (lower name)).map trim := by
  rw [givenValues, lineValues, List.map_map]
  rfl

namespace RequestFields

/-- Fields of different names may be added in either order. -/
theorem add_add_comm (f : RequestFields) {name name' : Text}
    (h : Request.fieldName name ≠ Request.fieldName name') (value value' : Text) :
    (f.add name value).add name' value' = (f.add name' value').add name value := by
  refine eq_of_values (Std.ExtTreeMap.ext_getElem? fun key => ?_)
  simp only [getElem?_add]
  by_cases hname : Request.fieldName name = key
  · have hname' : Request.fieldName name' ≠ key := fun hkey => h (hname.trans hkey.symm)
    simp only [if_pos hname, if_neg hname']
  · simp only [if_neg hname]

end RequestFields

namespace Request

variable (method : Method) (target : Text) (lines : List (Text × Text))

/-- What is looked up is what the lines give, joined in order. -/
theorem field?_withFields_new (name : Text) :
    ((new method target).withFields lines).field? name =
      if givenValues lines name = [] then none
      else some (join ", " (givenValues lines name)) := by
  have hnone : (new method target).fields.values[lower name]? = none :=
    Std.ExtTreeMap.getElem?_empty
  rw [field?, fields_withFields lines (lower name) hnone, givenValues_eq]
  simp only [List.map_eq_nil_iff]

/-- The case of letters does not matter when a name is looked up. -/
theorem field?_of_sameLetters {name name' : Text} (h : SameLetters name name') (r : Request) :
    r.field? name = r.field? name' := by
  rw [field?, field?, h]

/-- A name with white space around it is no key. -/
theorem givenValues_of_not_trimmed {name : Text} (h : trim name ≠ name) :
    givenValues lines name = [] := by
  rw [givenValues, List.map_eq_nil_iff, List.filter_eq_nil_iff]
  intro line _ hsame
  have hkey : lower (trim line.1) = lower name := of_decide_eq_true hsame
  -- trimming leaves the key as it is, and so it takes nothing from the name
  have hlower : lower (trim name) = lower name := by
    rw [← trim_lower, ← hkey, trim_lower, trim_trim]
  have hlength := congrArg List.length hlower
  rw [lower, lower, List.length_map, List.length_map] at hlength
  exact h (trim_eq_self_of_length hlength.ge)

theorem field?_of_not_trimmed {name : Text} (h : trim name ≠ name) :
    ((new method target).withFields lines).field? name = none := by
  rw [field?_withFields_new, if_pos (givenValues_of_not_trimmed lines h)]

/-- Two lines with different names may change places. -/
theorem withFields_swap (r : Request) {first second : Text × Text}
    (h : ¬SameLetters (trim first.1) (trim second.1)) (before after : List (Text × Text)) :
    r.withFields (before ++ second :: first :: after) =
      r.withFields (before ++ first :: second :: after) := by
  simp only [withFields, List.foldl_append, List.foldl_cons]
  generalize before.foldl (fun r line => r.withField line.1 line.2) r = r'
  have hswap := r'.fields.add_add_comm (fun hsame => h hsame.symm) second.2 first.2
  simp only [withField, hswap]

/-- **Fields of a request.** The value of a name, in any case of its letters, is that of the lines
with this name, trimmed and joined in order, and there is none without such a line or when there is
white space around the name that is looked up. The languages that are kept are those that the value
of the accept-language field lists. Two neighbouring lines with different names may change
places. -/
theorem fields_of_lines (method : Method) (target : Text) (lines : List (Text × Text)) :
    let r := (new method target).withFields lines
    (∀ name, r.field? name =
      if givenValues lines name = [] then none
      else some (join ", " (givenValues lines name))) ∧
    (∀ name, trim name ≠ name → r.field? name = none) ∧
    r.acceptLanguage = ((r.field? "Accept-Language").map byQuality).getD [] ∧
    ∀ before first second after, lines = before ++ first :: second :: after →
      ¬SameLetters (trim first.1) (trim second.1) →
      (new method target).withFields (before ++ second :: first :: after) = r := by
  refine ⟨field?_withFields_new method target lines, fun _ h => field?_of_not_trimmed _ _ _ h,
    ?_, ?_⟩
  · have hname : SameLetters "Accept-Language" "accept-language" := by decide
    rw [field?_of_sameLetters hname]
    exact acceptLanguage_eq_byQuality _
  · rintro before first second after rfl h
    exact withFields_swap _ h before after

/-- Lines with two names, one of them in two spellings. -/
def spelledLines : List (Text × Text) :=
  [("Accept-Language ", "en;q=0.5"), ("HOST", " example.org "), (" accept-language", "fr")]

theorem fields_of_lines_spelledLines :
    let r := (new .get "/").withFields spelledLines
    r.field? "ACCEPT-language" = some ("en;q=0.5, fr" : Text) ∧
    (trim " Host" ≠ " Host" ∧ r.field? " Host" = none) ∧
    r.acceptLanguage = byQuality "en;q=0.5, fr" ∧
    (¬SameLetters (trim "Accept-Language ") (trim "HOST") ∧
      (new .get "/").withFields [("HOST", " example.org "), ("Accept-Language ", "en;q=0.5"),
        (" accept-language", "fr")] = r) := by
  obtain ⟨hvalue, hnone, hlanguages, hswap⟩ := fields_of_lines .get "/" spelledLines
  have hblank : trim " Host" ≠ (" Host" : Text) := by decide
  have hdifferent : ¬SameLetters (trim "Accept-Language ") (trim "HOST") := by decide
  refine ⟨(hvalue _).trans (by decide), ⟨hblank, hnone _ hblank⟩, ?_, ⟨hdifferent, ?_⟩⟩
  · rw [hlanguages, hvalue]
    rfl
  · exact hswap [] _ _ _ rfl hdifferent

/-- White space around a name that is looked up is not taken away, as it is from the names of the
lines: a line with the name `Host` does not answer for ` Host`. -/
theorem not_forall_field?_trim :
    ¬∀ (method : Method) (target : Text) (lines : List (Text × Text)) (name : Text),
      ((new method target).withFields lines).field? name =
        if givenValues lines (trim name) = [] then none
        else some (join ", " (givenValues lines (trim name))) := by
  intro h
  have hhost := h .get "/" [("Host", "a")] " Host"
  rw [field?_of_not_trimmed _ _ _ (by decide)] at hhost
  exact absurd hhost (by decide)

end Request

end Http

end Webroot
