import Mathlib.Data.List.Infix
import Webroot.Glob.Parser
import Webroot.Proofs.Glob.Notation
import Webroot.Proofs.Text.Basic

/-!
# Patterns, read as they are written

A pattern that is written as a row of parts is read as a row of atoms, one for each part
(`atoms?_written`), and the atoms match what the parts denote (`matches_atoms_iff`).

Brackets need care. In a class two hyphens in a row take away the members after them, after a
negation every hyphen at the start is a member, and a closing bracket that comes first is never the
end of a range. A bracket in which none of this makes a difference is **plain**, and plain brackets
are read as they are written (`charClass?_inner`).
-/

namespace Webroot.Glob

open Text

/-! ### Members -/

theorem members_cons {c : Char} {rest : Text} (h : ∀ hi r, rest ≠ '-' :: hi :: r) :
    members (c :: rest) = ⟨c, c⟩ :: members rest := by
  rw [members]
  exact h

/-- A character that no range begins with is followed by no end of a range. -/
theorem rangeEnd?_eq_none {rest : Text} (h : ∀ hi r, rest ≠ '-' :: hi :: r) :
    rangeEnd? rest = none := by
  rw [rangeEnd?.eq_def]
  split
  · exact absurd rfl (h _ _)
  · rfl

/-- Texts without two hyphens in a row go on without them. -/
theorem hyphens_not_infix_tail {t : Text} (h : ¬ ['-', '-'] <:+: t) : ¬ ['-', '-'] <:+: t.tail :=
  fun hpair => h (hpair.trans (List.tail_suffix t).isInfix)

/-- Members without two hyphens in a row are read as they are written. At the start, where a hyphen
is plain, there may be two. -/
theorem members?_eq (plain : Bool) {t : Text} (htail : ¬ ['-', '-'] <:+: t.tail)
    (hstart : plain = false → ¬ ['-', '-'] <:+: t) (hup : ∀ r ∈ members t, r.lo ≤ r.hi) :
    members? plain 0 t = some { kept := members t } := by
  induction t using members.induct generalizing plain with
  | case1 lo hi rest ih =>
    have hhi : hi ≠ '-' := by
      rintro rfl
      exact htail ⟨[], rest, rfl⟩
    have hremoval : ¬(lo = '-' ∧ plain = false ∧ ('-' :: hi :: rest).head? = some '-') := by
      rintro ⟨rfl, hplain, -⟩
      exact hstart hplain ⟨[], hi :: rest, rfl⟩
    have hrest : ¬ ['-', '-'] <:+: rest := fun h =>
      htail (h.trans (List.suffix_append ['-', hi] rest).isInfix)
    obtain ⟨hlohi, hup⟩ := List.forall_mem_cons.mp hup
    have hread := ih false (hyphens_not_infix_tail hrest) (fun _ => hrest) hup
    rw [members?, if_neg hremoval]
    simp only [rangeEnd?, if_neg hhi, if_pos hlohi, members?, hread, Option.map_some]
    rfl
  | case2 c rest hsingle ih =>
    have hremoval : ¬(c = '-' ∧ plain = false ∧ rest.head? = some '-') := by
      rintro ⟨rfl, hplain, hhead⟩
      obtain ⟨rest, rfl⟩ := List.head?_eq_some_iff.mp hhead
      exact hstart hplain ⟨[], rest, rfl⟩
    rw [members_cons hsingle] at hup ⊢
    obtain ⟨-, hup⟩ := List.forall_mem_cons.mp hup
    have hread := ih false (hyphens_not_infix_tail htail) (fun _ => htail) hup
    rw [members?, if_neg hremoval]
    simp only [rangeEnd?_eq_none hsingle, hread, Option.map_some]
    rfl
  | case3 => rfl

/-! ### Brackets -/

namespace Bracket

/-- A bracket is **plain** when no two hyphens stand in a row after its first member, or after its
sign if it has one, and no range begins with a closing bracket. -/
structure Plain (b : Bracket) : Prop where
  hyphens : ¬ ['-', '-'] <:+: b.others
  signed : b.sign ≠ .none → ¬ ['-', '-'] <:+: b.inner
  closing : b.first = ']' → ∀ hi rest, b.others ≠ '-' :: hi :: rest

/-- The class of the characters that a bracket holds. -/
def charClass (b : Bracket) : CharClass :=
  { negated := b.sign ≠ .none, members := members b.inner, removed := [] }

theorem has_charClass_iff (b : Bracket) (c : Char) : b.charClass.has c = true ↔ b.Holds c := by
  have hmember : inRanges (members b.inner) c = true ↔
      ∃ r ∈ members b.inner, r.lo ≤ c ∧ c ≤ r.hi := by
    simp [inRanges]
  have hhas : b.charClass.has c =
      (inRanges (members b.inner) c == decide (b.sign = .none)) := by
    have hnone : inRanges [] c = false := rfl
    simp only [CharClass.has, charClass, hnone, Bool.not_false, Bool.and_true]
    cases inRanges (members b.inner) c <;> cases b.sign <;> rfl
  rw [hhas, Holds, ← hmember, beq_iff_eq, Bool.eq_iff_iff, decide_eq_true_iff]

/-- What follows a bracket is what follows its closing bracket. -/
theorem bracket?_text (b : Bracket) (rest : Text) :
    bracket? (b.sign.text ++ (b.inner ++ ']' :: rest)) =
      some (decide (b.sign ≠ .none), b.inner, rest) := by
  have hcut := cut_append_cons b.closed rest
  cases hsign : b.sign with
  | none =>
    obtain ⟨hexclamation, hcaret⟩ := b.unsigned hsign
    simp [bracket?, Sign.text, inner, hexclamation, hcaret, hcut]
  | exclamation => simp [bracket?, Sign.text, inner, hcut]
  | caret => simp [bracket?, Sign.text, inner, hcut]

end Bracket

/-! ### Classes -/

/-- Members lie deep only where members are taken away. -/
theorem depth_kept_le (rs : List CharRange) : ({ kept := rs } : Members).depth ≤ maxDepth := by
  simp only [Members.depth]
  split <;> decide

/-- A class that begins with a closing bracket. -/
theorem charClass?_closing {negated : Bool} {r : Text} {rs : List CharRange}
    (hread : members? false 0 r = some { kept := rs }) :
    charClass? negated (']' :: r) =
      some { negated, members := ⟨']', ']'⟩ :: rs, removed := [] } := by
  have hlead : (if negated then (']' :: r).takeWhile (· == '-') else []) = [] := by
    cases negated <;> rfl
  rw [charClass?, hlead]
  simp only [List.length_nil, List.drop_zero, hread, Option.map_some, List.map_nil,
    List.nil_append, Option.bind_eq_bind, Option.bind_some]
  exact if_pos (depth_kept_le (⟨']', ']'⟩ :: rs))

/-- A class that begins otherwise: hyphens after a sign, and then members. -/
theorem charClass?_of_members? {negated : Bool} {t : Text} (lead : Text) {rs : List CharRange}
    (hlead : (if negated then t.takeWhile (· == '-') else []) = lead)
    (hfirst : lead = [] → t.head? ≠ some ']')
    (hread : members? true 0 (t.drop lead.length) = some { kept := rs }) :
    charClass? negated t =
      some { negated, members := lead.map (fun c => ⟨c, c⟩) ++ rs, removed := [] } := by
  rw [charClass?, hlead]
  simp only
  split
  · rename_i r hdrop
    exact absurd (congrArg List.head? hdrop) (hfirst rfl)
  · simp only [hread, Option.bind_eq_bind, Option.bind_some]
    exact if_pos (depth_kept_le _)

/-- A class with a sign and then one hyphen, which is read apart from the members after it. -/
theorem charClass?_hyphen {t : Text} (h : ¬ ['-', '-'] <:+: '-' :: t)
    (hup : ∀ r ∈ members ('-' :: t), r.lo ≤ r.hi) :
    charClass? true ('-' :: t) =
      some { negated := true, members := members ('-' :: t), removed := [] } := by
  have hnext : t.head? ≠ some '-' := by
    intro hhead
    obtain ⟨rest, rfl⟩ := List.head?_eq_some_iff.mp hhead
    exact h ⟨[], rest, rfl⟩
  have hlead : ('-' :: t).takeWhile (· == '-') = ['-'] := by
    rw [List.takeWhile_cons_of_pos rfl]
    cases t with
    | nil => rfl
    | cons c t =>
      have hc : c ≠ '-' := by simpa using hnext
      simp [hc]
  have hsingle : ∀ hi rest, t ≠ '-' :: hi :: rest := by
    rintro hi rest rfl
    exact hnext rfl
  rw [members_cons hsingle] at hup ⊢
  have hread := members?_eq true (hyphens_not_infix_tail (hyphens_not_infix_tail h))
    (fun hplain => Bool.noConfusion hplain) (List.forall_mem_cons.mp hup).2
  exact charClass?_of_members? ['-'] hlead
    (fun hnil => absurd hnil (List.cons_ne_nil _ _)) hread

/-- The class of a plain bracket is read as it is written. -/
theorem Bracket.charClass?_inner {b : Bracket} (h : b.Plain) :
    charClass? (decide (b.sign ≠ .none)) b.inner = some b.charClass := by
  have hup : ∀ r ∈ members (b.first :: b.others), r.lo ≤ r.hi := b.ascending
  by_cases hclosing : b.first = ']'
  · have hsingle := h.closing hclosing
    rw [members_cons hsingle] at hup
    have hread := members?_eq false (hyphens_not_infix_tail h.hyphens)
      (fun _ => h.hyphens) (List.forall_mem_cons.mp hup).2
    rw [charClass, inner, hclosing, members_cons hsingle]
    exact charClass?_closing hread
  · by_cases hhyphen : b.sign ≠ .none ∧ b.first = '-'
    · obtain ⟨hsign, hfirst⟩ := hhyphen
      have hsigned := h.signed hsign
      rw [inner, hfirst] at hsigned
      rw [hfirst] at hup
      rw [charClass, inner, hfirst, decide_eq_true hsign]
      exact charClass?_hyphen hsigned hup
    · have hlead : (if decide (b.sign ≠ .none) then b.inner.takeWhile (· == '-') else []) =
          [] := by
        split_ifs with hsign
        · have hc : b.first ≠ '-' := fun hc => hhyphen ⟨of_decide_eq_true hsign, hc⟩
          simp [inner, hc]
        · rfl
      have hread := members?_eq true (t := b.inner) h.hyphens
        (fun hplain => Bool.noConfusion hplain) hup
      exact charClass?_of_members? [] hlead (fun _ hhead => hclosing (Option.some.inj hhead)) hread

/-! ### Atoms -/

/-- The atom as which a part is read. -/
def Part.atom : Part → Atom
  | plain c _ => .literal c
  | escaped c => .literal c
  | anyOne => .anyOne
  | anyRun => .anyRun
  | bracket b => .oneOf b.charClass

/-- A bracket that is closed is read as its class, and then what follows it is read. -/
theorem atoms?_bracket {r inner rest : Text} {negated : Bool} {k : CharClass}
    (hbracket : bracket? r = some (negated, inner, rest))
    (hclass : charClass? negated inner = some k) :
    atoms? ('[' :: r) = (atoms? rest).map (.oneOf k :: ·) := by
  rw [atoms?.eq_def]
  simp only [Char.reduceEq, if_false, if_true]
  split
  · rename_i hnone
    rw [hbracket] at hnone
    cases hnone
  · rename_i heq
    rw [hbracket] at heq
    cases heq
    rw [hclass]
    cases atoms? rest <;> rfl

/-- A part that is written before other text is read as its atom. -/
theorem atoms?_text_append {a : Part} (h : ∀ b, a = .bracket b → b.Plain) (t : Text) :
    atoms? (a.text ++ t) = (atoms? t).map (a.atom :: ·) := by
  cases a with
  | plain c hc =>
    obtain ⟨hrun, hone, hopen, hescape⟩ : c ≠ '*' ∧ c ≠ '?' ∧ c ≠ '[' ∧ c ≠ '\\' := by
      simpa using hc
    rw [Part.text, List.singleton_append, atoms?.eq_def]
    simp only [hrun, hone, hopen, hescape, if_false]
    rfl
  | escaped c =>
    rw [Part.text, List.cons_append, atoms?.eq_def]
    rfl
  | anyOne =>
    rw [Part.text, List.singleton_append, atoms?.eq_def]
    rfl
  | anyRun =>
    rw [Part.text, List.singleton_append, atoms?.eq_def]
    rfl
  | bracket b =>
    have hclass := Bracket.charClass?_inner (h b rfl)
    have hbracket := b.bracket?_text t
    have htext : Part.text (.bracket b) ++ t =
        '[' :: (b.sign.text ++ (b.inner ++ ']' :: t)) := by
      simp [Part.text, Bracket.text]
    rw [htext, atoms?_bracket hbracket hclass]
    rfl

/-- A pattern is read as the atoms of its parts. -/
theorem atoms?_written {p : List Part} (h : ∀ b, .bracket b ∈ p → b.Plain) :
    atoms? (written p) = some (p.map Part.atom) := by
  induction p with
  | nil => rw [written, List.flatMap_nil, atoms?.eq_def]; rfl
  | cons a p ih =>
    have hread := ih fun b hb => h b (List.mem_cons_of_mem a hb)
    rw [written] at hread
    rw [written, List.flatMap_cons, atoms?_text_append (fun b hb => h b (by simp [hb])), hread]
    rfl

/-! ### Meaning -/

theorem matches_nil_iff {t : Text} : Matches [] t ↔ t = [] := by
  constructor
  · rintro ⟨⟩
    rfl
  · rintro rfl
    exact .nil

/-- An atom for one character takes the first one of the name. -/
theorem matches_one_iff {a : Atom} (ha : a ≠ .anyRun) {p : List Atom} {t : Text} :
    Matches (a :: p) t ↔ ∃ c rest, t = c :: rest ∧ a.takes c = true ∧ Matches p rest := by
  constructor
  · intro h
    cases h with
    | one htakes hrest => exact ⟨_, _, rfl, htakes, hrest⟩
    | runEnd => exact absurd rfl ha
    | runMore => exact absurd rfl ha
  · rintro ⟨c, rest, rfl, htakes, hrest⟩
    exact .one htakes hrest

/-- A run takes any piece without a slash. -/
theorem matches_run_iff {p : List Atom} {t : Text} :
    Matches (.anyRun :: p) t ↔ ∃ piece rest, t = piece ++ rest ∧ '/' ∉ piece ∧ Matches p rest := by
  constructor
  · intro h
    induction t with
    | nil =>
      cases h with
      | runEnd hrest => exact ⟨[], [], rfl, List.not_mem_nil, hrest⟩
    | cons c t ih =>
      cases h with
      | one htakes _ => exact absurd htakes Bool.false_ne_true
      | runEnd hrest => exact ⟨[], c :: t, rfl, List.not_mem_nil, hrest⟩
      | runMore hc hmore =>
        obtain ⟨piece, rest, rfl, hpiece, hrest⟩ := ih hmore
        exact ⟨c :: piece, rest, rfl, by simp [hc.symm, hpiece], hrest⟩
  · rintro ⟨piece, rest, rfl, hpiece, hrest⟩
    induction piece with
    | nil => exact .runEnd hrest
    | cons c piece ih =>
      obtain ⟨hc, hpiece⟩ : '/' ≠ c ∧ '/' ∉ piece := by simpa using hpiece
      exact .runMore hc.symm (ih hpiece)

theorem Part.atom_eq_anyRun_iff {a : Part} : a.atom = .anyRun ↔ a = .anyRun := by
  cases a <;> simp [atom]

/-- What a part for one character stands for is what its atom takes. -/
theorem Part.stands_iff {a : Part} (ha : a.atom ≠ .anyRun) {t : Text} :
    a.Stands t ↔ ∃ c, a.atom.takes c = true ∧ t = [c] := by
  cases a with
  | plain c _ => simp [Stands, atom, Atom.takes]
  | escaped c => simp [Stands, atom, Atom.takes]
  | anyOne => simp [Stands, atom, Atom.takes]
  | anyRun => exact absurd rfl ha
  | bracket b => simp only [Stands, atom, Atom.takes, b.has_charClass_iff]

/-- The atoms of a pattern match the names that its parts denote. -/
theorem matches_atoms_iff (p : List Part) (name : Text) :
    Matches (p.map Part.atom) name ↔ Denotes p name := by
  induction p generalizing name with
  | nil => exact matches_nil_iff
  | cons a p ih =>
    rw [List.map_cons, Denotes]
    by_cases ha : a.atom = .anyRun
    · obtain rfl := Part.atom_eq_anyRun_iff.mp ha
      simp only [Part.atom, matches_run_iff, ih, Part.Stands]
    · rw [matches_one_iff ha]
      simp only [Part.stands_iff ha, ih]
      constructor
      · rintro ⟨c, rest, rfl, htakes, hrest⟩
        exact ⟨[c], rest, rfl, ⟨c, htakes, rfl⟩, hrest⟩
      · rintro ⟨_, rest, rfl, ⟨c, htakes, rfl⟩, hrest⟩
        exact ⟨c, rest, rfl, htakes, hrest⟩

end Webroot.Glob
