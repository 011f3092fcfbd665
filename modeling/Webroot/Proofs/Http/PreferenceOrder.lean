import Webroot.Proofs.Http.QualityList

/-!
# The order of preferences

A list of preferences is read as their tags by decreasing weight, and none of them is lost or listed
twice. Blanks may stand around a preference and before its weight (`SpacedPreference`), and anything
else may stand between preferences (`ListItem.other`). Some of that is read too, such as a weight
above 1, and some is not. In either case it leaves the preferences in their order, for sorting is
indifferent to what is passed over (`filterMap_mergeSort`).

Main statement: `byQuality_ranked`.
-/

namespace Webroot.Http

open Text

/-! ### Preferences with blanks -/

/-- A preference with blanks around it and behind its semicolon. -/
structure SpacedPreference extends Preference where
  before : Text
  gap : Text
  after : Text
  blank_before : ∀ c ∈ before, isBlank c = true
  blank_gap : ∀ c ∈ gap, isBlank c = true
  blank_after : ∀ c ∈ after, isBlank c = true

namespace SpacedPreference

variable (p : SpacedPreference)

/-- What stands between the tag and the blanks at the end. -/
def spacedSuffix : Text := match p.weight with
  | none => []
  | some w => ';' :: (p.gap ++ ("q=" ++ w.text))

def spacedText : Text := p.before ++ (p.tag ++ (p.spacedSuffix ++ p.after))

theorem weightOf?_spacedSuffix :
    weightOf? p.spacedSuffix = some (Binary64.units p.thousandths 1000) := by
  rw [spacedSuffix, Preference.thousandths]
  cases p.weight with
  | none => exact congrArg some (Binary64.units_mul_right 1 1 (by decide : 0 < 1000)).symm
  | some w => exact w.weightOf?_append p.blank_gap

/-- Behind the tag stands a blank, the semicolon or nothing. -/
theorem head?_spacedSuffix_append :
    ∀ c ∈ (p.spacedSuffix ++ p.after).head?, isQualityTagChar c = false := by
  rw [spacedSuffix]
  cases p.weight with
  | none =>
    intro c hc
    rw [isQualityTagChar, p.blank_after c (List.mem_of_mem_head? hc)]
    rfl
  | some w =>
    rintro c ⟨⟩
    decide

theorem trimEnd_spacedSuffix_append :
    trimEnd isBlank (p.spacedSuffix ++ p.after) = p.spacedSuffix := by
  refine trimEnd_append ?_ p.blank_after
  rw [spacedSuffix]
  cases p.weight with
  | none => exact fun c hc => absurd hc (by simp)
  | some w =>
    -- a weight ends in a digit or a point
    intro c hc
    have hne : w.text ≠ [] := List.append_ne_nil_of_left_ne_nil w.whole_ne_nil _
    have hlast : (';' :: (p.gap ++ ("q=" ++ w.text))).getLast? = w.text.getLast? := by
      rw [← List.append_assoc, ← List.cons_append, List.getLast?_append_of_ne_nil _ hne]
    have hc : c ∈ w.text.getLast? := hlast ▸ hc
    rcases w.eq_or_isDigit_of_mem_text (List.mem_of_mem_getLast? hc) with rfl | hdigit
    · decide
    · exact isBlank_of_isDigit hdigit

theorem comma_not_mem_spacedText : ',' ∉ p.spacedText := by
  have htag : ',' ∉ p.tag := fun h => absurd (p.isQualityTagChar_of_mem ',' h) (by decide)
  have hsuffix : ',' ∉ p.spacedSuffix := by
    rw [spacedSuffix]
    cases p.weight with
    | none => exact List.not_mem_nil
    | some w =>
      have hweight : ',' ∉ w.text := fun h =>
        absurd (w.eq_or_isDigit_of_mem_text h) (by decide)
      simp [not_mem_of_isBlank p.blank_gap, hweight]
  simp [spacedText, not_mem_of_isBlank p.blank_before, not_mem_of_isBlank p.blank_after, htag,
    hsuffix]

/-- A preference with blanks is read as its tag and its weight. -/
theorem qualityElement?_trim_spacedText :
    qualityElement? (trim p.spacedText) = some (p.tag, Binary64.units p.thousandths 1000) := by
  rw [spacedText, qualityElement?_trim p.blank_before p.tag_ne_nil p.isQualityTagChar_of_mem
    p.head?_spacedSuffix_append, p.trimEnd_spacedSuffix_append, p.weightOf?_spacedSuffix,
    Option.map_some]

end SpacedPreference

/-! ### Lists with other items -/

/-- An **item** of a list, between two commas: a preference, or any text. -/
inductive ListItem where
  | preference (p : SpacedPreference)
  | other (t : Text) (comma : ',' ∉ t)

namespace ListItem

def text : ListItem → Text
  | preference p => p.spacedText
  | other t _ => t

def preference? : ListItem → Option SpacedPreference
  | preference p => some p
  | other _ _ => none

/-- What is read of an item, with the preference that it is if it is one. -/
def read? (i : ListItem) : Option ((Text × Nat) × Option SpacedPreference) :=
  (qualityElement? (trim i.text)).map fun e => (e, i.preference?)

theorem comma_not_mem_text (i : ListItem) : ',' ∉ i.text := by
  cases i with
  | preference p => exact p.comma_not_mem_spacedText
  | other t comma => exact comma

theorem read?_preference (p : SpacedPreference) :
    (preference p).read? = some ((p.tag, Binary64.units p.thousandths 1000), some p) := by
  rw [read?, text, p.qualityElement?_trim_spacedText]
  rfl

/-- What is read of a preference is its tag and its weight. -/
theorem eq_of_read? {i : ListItem} {e : Text × Nat} {p : SpacedPreference}
    (h : i.read? = some (e, some p)) : e = (p.tag, Binary64.units p.thousandths 1000) := by
  obtain ⟨e', -, heq⟩ := Option.map_eq_some_iff.mp h
  obtain ⟨rfl, hp⟩ := Prod.mk.inj heq
  cases i with
  | other t comma => cases hp
  | preference q =>
    obtain rfl : q = p := Option.some.inj hp
    rw [read?_preference] at h
    exact ((Prod.mk.inj (Option.some.inj h)).1).symm

/-- All preferences are read. -/
theorem bind_read? (i : ListItem) : i.read?.bind (·.2) = i.preference? := by
  cases i with
  | preference p => rw [read?_preference]; rfl
  | other t comma =>
    rw [read?]
    cases qualityElement? (trim (other t comma).text) <;> rfl

end ListItem

/-- A list as it is written, with a comma between neighbours. -/
def itemsText (items : List ListItem) : Text := [','].intercalate (items.map ListItem.text)

/-- A list is read item by item. -/
theorem qualityElements_itemsText (items : List ListItem) :
    qualityElements (itemsText items) = (items.filterMap ListItem.read?).map (·.1) := by
  have hread : (items.filterMap ListItem.read?).map (·.1) =
      (items.map ListItem.text).filterMap fun t => qualityElement? (trim t) := by
    rw [List.map_filterMap, List.filterMap_map]
    congr 1
    funext i
    rw [ListItem.read?, Option.map_map]
    exact Option.map_id'
  have hcomma : ∀ t ∈ items.map ListItem.text, ',' ∉ t := by
    intro t ht
    obtain ⟨i, -, rfl⟩ := List.mem_map.mp ht
    exact i.comma_not_mem_text
  rw [hread, qualityElements, itemsText]
  cases items with
  | nil => rfl
  | cons i items => rw [List.splitOn_intercalate ',' hcomma (by simp)]

/-! ### Sorting what is read -/

/-- What is read of a list, by decreasing weight. -/
def sortedReads (items : List ListItem) : List ((Text × Nat) × Option SpacedPreference) :=
  (items.filterMap ListItem.read?).mergeSort fun a b => decide (b.1.2 ≤ a.1.2)

/-- Preferences by decreasing weight. -/
def byThousandths (ps : List SpacedPreference) : List SpacedPreference :=
  ps.mergeSort fun p q => decide (q.thousandths ≤ p.thousandths)

theorem byQuality_itemsText (items : List ListItem) :
    byQuality (itemsText items) = (sortedReads items).map (·.1.1) := by
  rw [byQuality, qualityElements_itemsText, sortedReads, ← List.map_mergeSort
    (r := fun a b : (Text × Nat) × Option SpacedPreference => decide (b.1.2 ≤ a.1.2))
    (fun _ _ _ _ => rfl), List.map_map]
  rfl

theorem eq_of_mem_sortedReads {items : List ListItem} {e : Text × Nat} {p : SpacedPreference}
    (h : (e, some p) ∈ sortedReads items) :
    e = (p.tag, Binary64.units p.thousandths 1000) := by
  obtain ⟨i, -, hi⟩ := List.mem_filterMap.mp (List.mem_mergeSort.mp h)
  exact ListItem.eq_of_read? hi

/-- The preferences stand in the order that they have without the other items. -/
theorem filterMap_sortedReads (items : List ListItem) :
    (sortedReads items).filterMap (·.2) = byThousandths (items.filterMap ListItem.preference?) := by
  have hpreferences : (items.filterMap ListItem.read?).filterMap (·.2) =
      items.filterMap ListItem.preference? := by
    rw [List.filterMap_filterMap]
    exact congrArg (items.filterMap ·) (funext ListItem.bind_read?)
  let units (e : (Text × Nat) × Option SpacedPreference) : Nat := e.1.2
  let thousandths (p : SpacedPreference) : Nat := p.thousandths
  rw [sortedReads, byThousandths, ← hpreferences]
  refine filterMap_mergeSort (weight_trans units) (weight_total units) (weight_trans thousandths)
    (weight_total thousandths) ?_
  rintro ⟨d, _⟩ hd ⟨e, _⟩ he p q rfl rfl
  have hd := eq_of_mem_sortedReads (List.mem_mergeSort.mpr hd)
  have he := eq_of_mem_sortedReads (List.mem_mergeSort.mpr he)
  rw [hd, he]
  exact decide_eq_decide.mpr
    (Binary64.units_thousandths_le_iff q.thousandths_le p.thousandths_le)

/-- A list of preferences alone is read as their tags. -/
theorem byQuality_preferences (ps : List SpacedPreference) :
    byQuality (itemsText (ps.map .preference)) = (byThousandths ps).map (·.tag) := by
  have hreads : (ps.map ListItem.preference).filterMap ListItem.read? =
      ps.map fun p => ((p.tag, Binary64.units p.thousandths 1000), some p) := by
    rw [List.filterMap_map, ← List.filterMap_eq_map]
    exact congrArg (ps.filterMap ·) (funext ListItem.read?_preference)
  rw [byQuality_itemsText, sortedReads, hreads, byThousandths, ← List.map_mergeSort
    (r := fun p q : SpacedPreference => decide (q.thousandths ≤ p.thousandths)), List.map_map]
  · rfl
  · intro p _ q _
    simp only [Binary64.units_thousandths_le_iff q.thousandths_le p.thousandths_le]

/-! ### The ranking -/

/-- Preferences with their positions are a **ranking** of a list of preferences when they are those
of the list, each once, by decreasing weight and then by position. -/
structure IsRanking (ps : List SpacedPreference) (order : List (SpacedPreference × Nat)) :
    Prop where
  perm : order.Perm ps.zipIdx
  pairwise : order.Pairwise fun a b =>
    b.1.thousandths < a.1.thousandths ∨ a.1.thousandths = b.1.thousandths ∧ a.2 < b.2

theorem exists_isRanking (ps : List SpacedPreference) :
    ∃ order, IsRanking ps order ∧ order.map (·.1) = byThousandths ps :=
  ⟨_, ⟨List.mergeSort_perm _ _, pairwise_mergeSort_zipIdx (·.thousandths) ps⟩,
    List.mergeSort_zipIdx⟩

/-- **The order of preferences.** A list of preferences is read as their tags, by decreasing weight
and in the order of the list where weights are equal. With other items between the preferences there
may be other tags in the result; those that come from the preferences stand in it in the same
order. -/
theorem byQuality_ranked (items : List ListItem) :
    let ps := items.filterMap ListItem.preference?
    ∃ order, IsRanking ps order ∧
      byQuality (itemsText (ps.map .preference)) = order.map (·.1.tag) ∧
      ∃ marked : List (Text × Option SpacedPreference),
        byQuality (itemsText items) = marked.map (·.1) ∧
        marked.filterMap (·.2) = order.map (·.1) ∧
        ∀ m ∈ marked, ∀ p ∈ m.2, m.1 = p.tag := by
  intro ps
  obtain ⟨order, hranking, horder⟩ := exists_isRanking ps
  refine ⟨order, hranking, ?_, (sortedReads items).map fun e => (e.1.1, e.2), ?_, ?_, ?_⟩
  · rw [byQuality_preferences, ← horder, List.map_map]
    rfl
  · rw [byQuality_itemsText, List.map_map]
    rfl
  · rw [List.filterMap_map, horder]
    exact filterMap_sortedReads items
  · intro m hm p hp
    obtain ⟨⟨e, q⟩, he, rfl⟩ := List.mem_map.mp hm
    obtain rfl : q = some p := hp
    rw [eq_of_mem_sortedReads he]

end Webroot.Http
