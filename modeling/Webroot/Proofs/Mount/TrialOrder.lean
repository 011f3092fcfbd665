import Mathlib.Data.List.Basic
import Webroot.Proofs.Mount.Negotiation

/-!
# The order in which languages are tried

A language of the mount is tried **before** another when the client lists it before it; what the
client does not list comes after all that it does list, in the order of the mount (`TriedBefore`).
Any two languages are tried one before the other, so the order alone says what a search finds
(`isFirst_of_find?_languageOrder`): two clients for whom it is the same are given the same files
(`sameOutcome_of_sameOrder`).
-/

namespace Webroot.Resolve

open Http

/-! ### The order -/

/-- One language is tried **before** another. What a list does not hold counts as behind its end. -/
def TriedBefore (acceptable requested : List Text) (k l : Text) : Prop :=
  requested.idxOf k < requested.idxOf l ∨
    requested.idxOf k = requested.idxOf l ∧ acceptable.idxOf k < acceptable.idxOf l

instance (acceptable requested : List Text) (k l : Text) :
    Decidable (TriedBefore acceptable requested k l) :=
  inferInstanceAs (Decidable (_ ∨ _))

variable {acceptable requested : List Text} {k l : Text}

theorem TriedBefore.not_symm (h : TriedBefore acceptable requested k l) :
    ¬TriedBefore acceptable requested l k := by
  rw [TriedBefore] at h ⊢
  omega

/-- One of two languages of the mount is tried before the other. -/
theorem triedBefore_of_not (hk : k ∈ acceptable) (hne : k ≠ l)
    (h : ¬TriedBefore acceptable requested k l) : TriedBefore acceptable requested l k := by
  have hposition : acceptable.idxOf k ≠ acceptable.idxOf l := fun heq =>
    hne ((List.idxOf_inj hk).mp heq)
  rw [TriedBefore] at h ⊢
  omega

/-! ### The search -/

/-- What a search finds stands before all else that it could have found. -/
theorem idxOf_lt_of_find? {p : Text → Bool} {ls : List Text} (h : ls.find? p = some l)
    (hk : p k = true) (hne : k ≠ l) : ls.idxOf l < ls.idxOf k := by
  obtain ⟨hl, front, rest, rfl, hfront⟩ := List.find?_eq_some_iff_append.mp h
  have hnot : ∀ m, p m = true → m ∉ front := by
    intro m hm hmem
    simpa [hm] using hfront m hmem
  rw [List.idxOf_append_of_notMem (hnot l hl), List.idxOf_append_of_notMem (hnot k hk),
    List.idxOf_cons_self, List.idxOf_cons_ne _ (Ne.symm hne)]
  omega

/-- A search through the languages of the mount finds the one that is tried first. -/
theorem isFirst_of_find?_languageOrder {p : Text → Bool}
    (h : (languageOrder acceptable requested).find? p = some l) :
    IsFirst (TriedBefore acceptable requested) (· ∈ acceptable) (fun k => p k = true) l := by
  refine ⟨mem_languageOrder.mp (List.mem_of_find?_eq_some h), List.find?_some h, ?_⟩
  intro k hk hp
  refine or_iff_not_imp_left.mpr fun hne => ?_
  rw [languageOrder, List.find?_append, List.find?_filter, List.find?_filter,
    Option.or_eq_some_iff] at h
  rcases h with h | ⟨hnone, h⟩
  · exact .inl (idxOf_lt_of_find? h (by simp [hk, hp]) hne)
  · -- nothing that the client lists is found, so neither language is listed
    have hunlisted : ∀ m ∈ acceptable, p m = true → m ∉ requested := by
      intro m hm hpm hmem
      have hnot := List.find?_eq_none.mp hnone m hmem
      simp [hm, hpm] at hnot
    have hboth := List.find?_some h
    have hl : p l = true := (of_decide_eq_true hboth).2
    have hkr := hunlisted k hk hp
    have hlr := hunlisted l (List.mem_of_find?_eq_some h) hl
    refine .inr ⟨?_, idxOf_lt_of_find? h (by simp [hkr, hp]) hne⟩
    rw [List.idxOf_of_notMem hkr, List.idxOf_of_notMem hlr]

/-- Two clients have the **same order** when any two languages of the mount are tried in the same
order for both. -/
def SameOrder (acceptable requested requested' : List Text) : Prop :=
  ∀ k ∈ acceptable, ∀ l ∈ acceptable,
    TriedBefore acceptable requested k l ↔ TriedBefore acceptable requested' k l

/-- Two clients that do not have the same order have some two languages in opposite orders. -/
theorem exists_of_not_sameOrder {requested' : List Text}
    (h : ¬SameOrder acceptable requested requested') :
    ∃ k ∈ acceptable, ∃ l ∈ acceptable, k ≠ l ∧ TriedBefore acceptable requested k l ∧
      TriedBefore acceptable requested' l k := by
  simp only [SameOrder, not_forall] at h
  obtain ⟨k, hk, l, hl, hiff⟩ := h
  have hne : k ≠ l := by
    rintro rfl
    exact hiff (iff_of_false (fun hkk => hkk.not_symm hkk) fun hkk => hkk.not_symm hkk)
  by_cases hkl : TriedBefore acceptable requested k l
  · have hkl' : ¬TriedBefore acceptable requested' k l := fun h' => hiff (iff_of_true hkl h')
    exact ⟨k, hk, l, hl, hne, hkl, triedBefore_of_not hk hne hkl'⟩
  · have hkl' : TriedBefore acceptable requested' k l := by
      by_contra h'
      exact hiff (iff_of_false hkl h')
    exact ⟨l, hl, k, hk, hne.symm, triedBefore_of_not hk hne hkl, hkl'⟩

/-- What a search finds depends on the order alone. -/
theorem SameOrder.find?_eq {requested' : List Text} (h : SameOrder acceptable requested requested')
    (p : Text → Bool) :
    (languageOrder acceptable requested).find? p =
      (languageOrder acceptable requested').find? p := by
  cases hfind : (languageOrder acceptable requested).find? p with
  | none =>
    rw [eq_comm, List.find?_eq_none]
    intro l hl
    exact List.find?_eq_none.mp hfind l (mem_languageOrder.mpr (mem_languageOrder.mp hl))
  | some l =>
    have hfirst := isFirst_of_find?_languageOrder hfind
    obtain ⟨l', hfind'⟩ : ∃ l', (languageOrder acceptable requested').find? p = some l' := by
      rw [← Option.isSome_iff_exists, List.find?_isSome]
      exact ⟨l, mem_languageOrder.mpr hfirst.offered, hfirst.good⟩
    have hfirst' := isFirst_of_find?_languageOrder hfind'
    rw [hfind']
    rcases hfirst.before l' hfirst'.offered hfirst'.good with rfl | hbefore
    · rfl
    rcases hfirst'.before l hfirst.offered hfirst.good with rfl | hbefore'
    · rfl
    exact absurd hbefore' (((h l hfirst.offered l' hfirst'.offered).mp hbefore).not_symm)

/-! ### Resolution -/

variable {t : FileTree} {o : MountOptions} {root : Text}

theorem searchFile_congr {ls ls' : List Text} (h : ∀ p, ls.find? p = ls'.find? p)
    (dir base : Text) : searchFile t dir base ls = searchFile t dir base ls' := by
  simp only [searchFile, variants, List.find?_cons, List.find?_map, h]

theorem pick_congr {ls ls' : List Text} (h : ∀ p, ls.find? p = ls'.find? p) (here base : Text) :
    pick t o here base ls = pick t o here base ls' := by
  simp only [pick_eq_findSome?, searchFile_congr h]

/-- Two answers are the **same outcome** for a client: what was found, where it is, and how the path
was split. -/
structure SameOutcome (a a' : Answer Resolved) : Prop where
  result : a.result = a'.result
  filename : a.exchange.response.filename = a'.exchange.response.filename
  scriptName : a.exchange.request.scriptName = a'.exchange.request.scriptName
  pathInfo : a.exchange.request.pathInfo = a'.exchange.request.pathInfo

/-- Requests with the same parts are walked the same way. -/
theorem Reaches.withFields {r : Request} {pre left : List Text} (h : Reaches t o root r pre left)
    (fields : RequestFields) : Reaches t o root { r with fields } pre left :=
  ⟨h.eq_append, h.passes, h.stops⟩

/-- Requests that differ in header fields alone have the same outcome if the languages are tried in
the same order. -/
theorem sameOutcome_of_sameOrder {r : Request} {fields : RequestFields} (ho : o.Silent)
    (h : SameOrder o.acceptableLanguages r.acceptLanguage fields.languages) (t : FileTree)
    (root : Text) (response : Response) (journal : List Event) :
    SameOutcome (resolve t o root ⟨r, response, journal⟩)
      (resolve t o root ⟨{ r with fields }, response, journal⟩) := by
  have hpick : ∀ here base, pick t o here base (languages o r) =
      pick t o here base (languages o { r with fields }) := pick_congr h.find?_eq
  rcases finds_or_endsInDirectory_or_misses t o root r with
    ⟨pre, base, rest, name, hfinds⟩ | ⟨pre, left, hdir⟩ | ⟨pre, base, rest, hmiss⟩
  · have hfinds' : Finds t o root { r with fields } pre base rest name :=
      ⟨hfinds.reaches.withFields fields, hfinds.allowed, (hpick ..).symm.trans hfinds.picked⟩
    rw [Finds.resolve_eq (x := ⟨r, response, journal⟩) ho hfinds,
      Finds.resolve_eq (x := ⟨{ r with fields }, response, journal⟩) ho hfinds']
    exact ⟨rfl, rfl, rfl, rfl⟩
  · have hdir' : EndsInDirectory t o root { r with fields } pre left :=
      ⟨hdir.reaches.withFields fields,
        hdir.unpicked.imp_right fun ⟨hhead, hallowed, hnone⟩ =>
          ⟨hhead, hallowed, (hpick ..).symm.trans hnone⟩⟩
    rw [EndsInDirectory.resolve_eq (x := ⟨r, response, journal⟩) ho hdir,
      EndsInDirectory.resolve_eq (x := ⟨{ r with fields }, response, journal⟩) ho hdir']
    exact ⟨rfl, rfl, rfl, rfl⟩
  · have hmiss' : Misses t o root { r with fields } pre base rest :=
      ⟨hmiss.reaches.withFields fields,
        hmiss.unpicked.imp_right fun ⟨hslash, hnone⟩ => ⟨hslash, (hpick ..).symm.trans hnone⟩⟩
    rw [Misses.resolve_eq (x := ⟨r, response, journal⟩) ho hmiss,
      Misses.resolve_eq (x := ⟨{ r with fields }, response, journal⟩) ho hmiss', walked_entered ho,
      walked_entered ho]
    exact ⟨rfl, rfl, rfl, rfl⟩

end Webroot.Resolve
