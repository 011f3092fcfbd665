import Mathlib.Data.List.Forall2
import Mathlib.Tactic.SplitIfs

/-!
# Stable sorting

Sorting by merging is **stable**: elements that tie stay in order (`filter_mergeSort`). It is also
indifferent to elements that are passed over: picking elements out of a sorted list, or picking them
out first and then sorting, comes to the same (`filterMap_mergeSort`). Where elements are sorted by
a weight, they stand by decreasing weight and then by position (`pairwise_mergeSort_zipIdx`).
-/

namespace Webroot

variable {α β : Type}

/-! ### Picking out elements -/

/-- A list is cut in one place only where one kind of elements gives way to another. -/
theorem append_inj_of_kind {q : α → Bool} {as bs cs ds : List α}
    (has : ∀ a ∈ as, q a = true) (hbs : ∀ b ∈ bs, q b = false) (hcs : ∀ c ∈ cs, q c = true)
    (hds : ∀ d ∈ ds, q d = false) (h : as ++ bs = cs ++ ds) : as = cs ∧ bs = ds := by
  have hfirst : ∀ {us vs : List α}, (∀ u ∈ us, q u = true) → (∀ v ∈ vs, q v = false) →
      (us ++ vs).filter q = us := by
    intro us vs hus hvs
    rw [List.filter_append, List.filter_eq_self.mpr hus,
      List.filter_eq_nil_iff.mpr (by simpa using hvs), List.append_nil]
  have hinit : as = cs := by rw [← hfirst has hbs, h, hfirst hcs hds]
  subst hinit
  exact ⟨rfl, List.append_cancel_left h⟩

section Picking

variable {le : α → α → Bool} {le' : β → β → Bool} {f : α → Option β}
  (trans : ∀ a b c, le a b = true → le b c = true → le a c = true)
  (total : ∀ a b, (le a b || le b a) = true)

include trans total

/-- Sorting a list with one more element puts that before all that are not before it. -/
theorem exists_mergeSort_cons (a : α) (l : List α) :
    ∃ l₁ l₂, (a :: l).mergeSort le = l₁ ++ a :: l₂ ∧ l.mergeSort le = l₁ ++ l₂ ∧
      (∀ b ∈ l₁, le a b = false) ∧ ∀ b ∈ l₂, le a b = true := by
  obtain ⟨l₁, l₂, hcons, hl, hbefore⟩ := List.mergeSort_cons trans total a l
  have hsorted := List.pairwise_mergeSort trans total (a :: l)
  rw [hcons] at hsorted
  refine ⟨l₁, l₂, hcons, hl, by simpa using hbefore, ?_⟩
  exact (List.pairwise_cons.mp (List.pairwise_append.mp hsorted).2.1).1

/-- Elements are picked out of a sorted list in the order of what is made of them. -/
theorem filterMap_mergeSort (trans' : ∀ a b c, le' a b = true → le' b c = true → le' a c = true)
    (total' : ∀ a b, (le' a b || le' b a) = true)
    {l : List α}
    (hf : ∀ a ∈ l, ∀ b ∈ l, ∀ x y, f a = some x → f b = some y → le a b = le' x y) :
    (l.mergeSort le).filterMap f = (l.filterMap f).mergeSort le' := by
  induction l with
  | nil => simp
  | cons a l ih =>
    obtain ⟨l₁, l₂, hcons, hl, hbefore, hafter⟩ := exists_mergeSort_cons trans total a l
    obtain ⟨hfirst, hf⟩ := List.forall_mem_cons.mp hf
    have hmem : ∀ b, b ∈ l₁ ++ l₂ → b ∈ l := fun b hb => List.mem_mergeSort.mp (hl ▸ hb)
    have ih := ih fun b hb c hc => hf b hb c (List.mem_cons_of_mem a hc)
    rw [hl, List.filterMap_append] at ih
    rw [hcons, List.filterMap_append]
    cases ha : f a with
    | none => rw [List.filterMap_cons_none ha, List.filterMap_cons_none ha, ih]
    | some x =>
      obtain ⟨k₁, k₂, hcons', hk, hbefore', hafter'⟩ :=
        exists_mergeSort_cons trans' total' x (l.filterMap f)
      -- both sides are one list with `x` put into it, and there is one place for `x`
      obtain ⟨rfl, rfl⟩ : l₁.filterMap f = k₁ ∧ l₂.filterMap f = k₂ := by
        refine append_inj_of_kind (q := fun y => !le' x y) ?_ ?_ (by simpa using hbefore')
          (by simpa using hafter') (ih.trans hk)
        · intro y hy
          obtain ⟨b, hb, hby⟩ := List.mem_filterMap.mp hy
          have hbl := List.mem_cons_of_mem a (hmem b (List.mem_append_left l₂ hb))
          simp [← hfirst b hbl x y ha hby, hbefore b hb]
        · intro y hy
          obtain ⟨b, hb, hby⟩ := List.mem_filterMap.mp hy
          have hbl := List.mem_cons_of_mem a (hmem b (List.mem_append_right l₁ hb))
          simp [← hfirst b hbl x y ha hby, hafter b hb]
      rw [List.filterMap_cons_some ha, List.filterMap_cons_some ha, hcons']

/-- Elements of a kind keep their order when any two of them may stand in either order. -/
theorem filter_mergeSort {p : α → Bool}
    (hp : ∀ a b, p a = true → p b = true → le a b = true) (l : List α) :
    (l.mergeSort le).filter p = l.filter p := by
  have hpairwise : (l.filter p).Pairwise fun a b => le a b = true :=
    List.pairwise_of_forall_mem_list fun a ha b hb =>
      hp a b (List.mem_filter.mp ha).2 (List.mem_filter.mp hb).2
  -- what is picked out is sorted already
  rw [← List.filterMap_eq_filter, filterMap_mergeSort trans total trans total,
    List.filterMap_eq_filter, List.mergeSort_of_pairwise hpairwise]
  intro a _ b _ x y hx hy
  rw [Option.guard_eq_some_iff] at hx hy
  rw [hx.1, hy.1]

end Picking

/-! ### Sorting by weights -/

/-- Positions increase along a list. -/
theorem pairwise_zipIdx (l : List α) : l.zipIdx.Pairwise fun a b => a.2 < b.2 := by
  rw [← List.pairwise_map, List.zipIdx_map_snd]
  exact List.pairwise_lt_range'

section Weights

variable (w : α → Nat)

theorem weight_trans (a b c : α) (hab : decide (w b ≤ w a) = true)
    (hbc : decide (w c ≤ w b) = true) : decide (w c ≤ w a) = true := by
  rw [decide_eq_true_eq] at hab hbc ⊢
  exact Nat.le_trans hbc hab

theorem weight_total (a b : α) : (decide (w b ≤ w a) || decide (w a ≤ w b)) = true := by
  simpa using Nat.le_total (w b) (w a)

/-- By decreasing weight, and then by position. -/
theorem pairwise_mergeSort_zipIdx (l : List α) :
    (l.zipIdx.mergeSort (List.zipIdxLE fun a b => decide (w b ≤ w a))).Pairwise fun a b =>
      w b.1 < w a.1 ∨ w a.1 = w b.1 ∧ a.2 < b.2 := by
  have hsorted := List.pairwise_mergeSort (List.zipIdxLE_trans (weight_trans w))
    (List.zipIdxLE_total (weight_total w)) l.zipIdx
  -- sorting keeps the positions, and no position occurs twice
  have hdistinct : (l.zipIdx.mergeSort (List.zipIdxLE fun a b => decide (w b ≤ w a))).Pairwise
      fun a b => a.2 ≠ b.2 :=
    ((List.mergeSort_perm _ _).pairwise_iff Ne.symm).mpr ((pairwise_zipIdx l).imp Nat.ne_of_lt)
  refine (hsorted.and hdistinct).imp fun {a b} h => ?_
  obtain ⟨hle, hne⟩ := h
  simp only [List.zipIdxLE, decide_eq_true_eq] at hle
  split_ifs at hle with hab hba
  · exact .inr ⟨Nat.le_antisymm hba hab, Nat.lt_of_le_of_ne (of_decide_eq_true hle) hne⟩
  · exact .inl (Nat.not_le.mp hba)

end Weights

/-! ### Sorting two lists at once -/

/-- Lists that correspond, and are sorted alike, correspond when they are sorted. -/
theorem forall₂_mergeSort {R : α → β → Prop} {le : α → α → Bool} {le' : β → β → Bool}
    (hR : ∀ a b x y, R a x → R b y → le a b = le' x y) {l : List α} {l' : List β}
    (h : List.Forall₂ R l l') : List.Forall₂ R (l.mergeSort le) (l'.mergeSort le') := by
  -- the two lists are the two sides of one list of pairs
  obtain ⟨zs, hzs, rfl, rfl⟩ : ∃ zs : List (α × β), (∀ z ∈ zs, R z.1 z.2) ∧
      l = zs.map (·.1) ∧ l' = zs.map (·.2) := by
    induction h with
    | nil => exact ⟨[], List.forall_mem_nil _, rfl, rfl⟩
    | @cons a x l l' hax _ ih =>
      obtain ⟨zs, hzs, rfl, rfl⟩ := ih
      exact ⟨(a, x) :: zs, List.forall_mem_cons.mpr ⟨hax, hzs⟩, rfl, rfl⟩
  rw [← List.map_mergeSort (r := fun z z' => le z.1 z'.1) (fun _ _ _ _ => rfl),
    ← List.map_mergeSort (r := fun z z' => le z.1 z'.1)
      (fun z hz z' hz' => hR _ _ _ _ (hzs z hz) (hzs z' hz')),
    List.forall₂_map_left_iff, List.forall₂_map_right_iff, List.forall₂_same]
  intro z hz
  exact hzs z (List.mem_mergeSort.mp hz)

end Webroot
