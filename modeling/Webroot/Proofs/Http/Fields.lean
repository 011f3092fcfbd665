import Webroot.Http.Response
import Webroot.Proofs.Http.Multipart

/-!
# Fields of a response

The fields of a response are **orderly** when all of them are plain and no two have one name,
whatever the case of its letters. Every step that builds a response keeps them so, as long as what
it puts in is plain. Of orderly fields there is one with a name or none, and looking it up finds it
(`Response.Orderly.fieldValues_eq`).
-/

namespace Webroot.Http

open Text

/-- The values of the fields with a name, in order. -/
def fieldValues (fields : List (Text × Text)) (name : Text) : List Text :=
  (fields.filter fun f => SameLetters f.1 name).map (·.2)

theorem fieldValues_append (fields fields' : List (Text × Text)) (name : Text) :
    fieldValues (fields ++ fields') name = fieldValues fields name ++ fieldValues fields' name := by
  rw [fieldValues, List.filter_append, List.map_append]
  rfl

theorem fieldValues_singleton (name value : Text) : fieldValues [(name, value)] name = [value] := by
  simp [fieldValues, SameLetters]

open Multipart (PlainField)

theorem plainField_contentLength (n : Nat) : PlainField "Content-Length" (decimal n) :=
  ⟨by decide, by decide, not_mem_decimal rfl n⟩

theorem plainField_contentType {mime : Text} (h : '\r' ∉ mime) : PlainField "Content-Type" mime :=
  ⟨by decide, by decide, h⟩

namespace Response

/-- The fields of a response are **orderly** when they are plain and no two have one name. -/
structure Orderly (r : Response) : Prop where
  plain : ∀ f ∈ r.fields, PlainField f.1 f.2
  distinct : r.fields.Pairwise fun f g => ¬SameLetters f.1 g.1

variable {r : Response} {name value : Text}

/-! ### Putting fields in -/

/-- A field takes the place of one of its name, and brings its value with it. -/
theorem plainField_putField (h : PlainField name value) {fields : List (Text × Text)}
    (hfields : ∀ f ∈ fields, PlainField f.1 f.2) :
    ∀ f ∈ putField name value fields, PlainField f.1 f.2 := by
  induction fields with
  | nil => simpa [putField] using h
  | cons f fields ih =>
    obtain ⟨hf, hrest⟩ := List.forall_mem_cons.mp hfields
    rw [putField]
    split_ifs with hsame
    · exact List.forall_mem_cons.mpr ⟨⟨hf.colon, hf.name, h.value⟩, hrest⟩
    · exact List.forall_mem_cons.mpr ⟨hf, ih hrest⟩

/-- No name comes in but the one that is put in. -/
theorem name_of_mem_putField {fields : List (Text × Text)} {f : Text × Text}
    (h : f ∈ putField name value fields) : f.1 = name ∨ ∃ g ∈ fields, f.1 = g.1 := by
  induction fields with
  | nil =>
    rw [putField, List.mem_singleton] at h
    exact .inl (by rw [h])
  | cons g fields ih =>
    rw [putField] at h
    split_ifs at h with hsame
    · rcases List.mem_cons.mp h with rfl | h
      · exact .inr ⟨g, List.mem_cons_self, rfl⟩
      · exact .inr ⟨f, List.mem_cons_of_mem g h, rfl⟩
    · rcases List.mem_cons.mp h with rfl | h
      · exact .inr ⟨g, List.mem_cons_self, rfl⟩
      · rcases ih h with hname | ⟨g', hg', hname⟩
        · exact .inl hname
        · exact .inr ⟨g', List.mem_cons_of_mem g hg', hname⟩

theorem pairwise_putField {fields : List (Text × Text)}
    (h : fields.Pairwise fun f g => ¬SameLetters f.1 g.1) :
    (putField name value fields).Pairwise fun f g => ¬SameLetters f.1 g.1 := by
  induction fields with
  | nil => exact List.pairwise_singleton _ _
  | cons f fields ih =>
    obtain ⟨hf, hrest⟩ := List.pairwise_cons.mp h
    rw [putField]
    split_ifs with hsame
    · exact List.pairwise_cons.mpr ⟨hf, hrest⟩
    · refine List.pairwise_cons.mpr ⟨?_, ih hrest⟩
      intro g hg
      rcases name_of_mem_putField hg with hname | ⟨g', hg', hname⟩
      · rwa [hname]
      · rw [hname]
        exact hf g' hg'

/-! ### Steps that keep fields orderly -/

theorem orderly_of_fields_eq_nil (h : r.fields = []) : r.Orderly := by
  constructor
  · simp [h]
  · simp [h]

theorem Orderly.setField (h : r.Orderly) (hfield : PlainField name value) :
    (r.setField name value).Orderly :=
  ⟨plainField_putField hfield h.plain, pairwise_putField h.distinct⟩

theorem Orderly.removeField (h : r.Orderly) (name : Text) : (r.removeField name).Orderly := by
  constructor
  · intro f hf
    exact h.plain f (List.mem_filter.mp hf).1
  · exact h.distinct.filter _

theorem Orderly.setStatus (h : r.Orderly) (code : Nat) : (r.setStatus code).Orderly :=
  ⟨h.plain, h.distinct⟩

theorem Orderly.setBody (h : r.Orderly) (body : Body) : (r.setBody body).Orderly :=
  ⟨h.plain, h.distinct⟩

theorem Orderly.setPage (h : r.Orderly) (page : Text) : (r.setPage page).Orderly :=
  (h.setField ⟨by decide, by decide, by decide⟩).setBody _

/-! ### Looking fields up -/

theorem fieldValues_eq_of_pairwise {fields : List (Text × Text)}
    (h : fields.Pairwise fun f g => ¬SameLetters f.1 g.1) (name : Text) :
    fieldValues fields name =
      ((fields.find? fun (k, _) => SameLetters k name).map (·.2)).toList := by
  rw [fieldValues]
  induction fields with
  | nil => rfl
  | cons f fields ih =>
    obtain ⟨hf, hrest⟩ := List.pairwise_cons.mp h
    by_cases hsame : SameLetters f.1 name
    · -- the others have other names
      have hothers : fields.filter (fun g => SameLetters g.1 name) = [] := by
        rw [List.filter_eq_nil_iff]
        intro g hg hname
        exact hf g hg (hsame.trans (of_decide_eq_true hname).symm)
      simp [hsame, hothers]
    · simpa [hsame] using ih hrest

/-- Of orderly fields one at most has a name, and looking the name up finds it. -/
theorem Orderly.fieldValues_eq (h : r.Orderly) (name : Text) :
    fieldValues r.fields name = (r.field? name).toList :=
  fieldValues_eq_of_pairwise h.distinct name

end Response

end Webroot.Http
