import Webroot.HiddenNames
import Webroot.Proofs.Glob.Reading

/-!
# Names that patterns hide

A list of patterns hides the names that one of them denotes, and reports the first that does. This
is so when every bracket among them is plain and no pattern is too large; a pattern that is too
large stands for its own text alone.

A bracket that is not plain is read in another way than it is written: in `[+--]` the hyphens take
away the members after them, of which there are none, so that the comma between `+` and `-` is not
hidden.

Main statements: `HiddenNames.hides_iff_denotes` and `HiddenNames.not_forall_hides_iff`.
-/

namespace Webroot

open Glob

/-! ### Classes of one range -/

/-- What the gaps around a range leave out is that range. -/
theorem CharSet.complement_complement_singleton {lo hi : Nat} (hlo : 0 < lo) (hle : lo ≤ hi)
    (hhi : hi < last) : complement (complement [(lo, hi)]) = [(lo, hi)] := by
  have hgaps : complement [(lo, hi)] = [(0, lo - 1), (hi + 1, last)] := by
    simp [complement, spans, joinFrom, gapsFrom, hlo, Nat.succ_le_of_lt hhi]
  have hsort : [(0, lo - 1), (hi + 1, last)].mergeSort (fun a b => Nat.ble a.1 b.1) =
      [(0, lo - 1), (hi + 1, last)] :=
    List.mergeSort_of_pairwise (by simp)
  have hapart : ¬hi + 1 ≤ lo - 1 + 1 := by omega
  have hspans : spans [(0, lo - 1), (hi + 1, last)] = [(0, lo - 1), (hi + 1, last)] := by
    rw [spans, hsort]
    simp [joinFrom, hapart]
  have hnext : lo - 1 + 1 = lo := by omega
  rw [hgaps, complement, hspans]
  simp [gapsFrom, hnext, Nat.lt_succ_of_le hle]

/-- The characters of a class of one range are those in the range. -/
theorem Glob.CharClass.set_singleton {lo hi : Char} (hlo : 0 < lo.toNat)
    (hle : lo.toNat ≤ hi.toNat) (hhi : hi.toNat < CharSet.last) :
    CharClass.set ⟨false, [⟨lo, hi⟩], []⟩ = CharSet.characters [(lo.toNat, hi.toNat)] := by
  have houtside := CharSet.complement_complement_singleton hlo hle hhi
  simp only [CharClass.set, codePoints, List.map_cons, List.map_nil, List.append_nil, houtside,
    Bool.false_eq_true, if_false]

namespace HiddenNames

/-! ### Patterns that are written -/

variable {ps : List (List Part)}

/-- A text is read as its atoms when they are not too large. -/
theorem ofText?_eq_some {t : Text} {p : List Atom} (hread : atoms? t = some p)
    (hfit : fits p = true) : ofText? t = some p := by
  simp [ofText?, sized, hread, hfit]

/-- Patterns that are written with plain brackets and not too large are kept, each as the atoms of
its parts. -/
theorem patterns_written (hplain : ∀ p ∈ ps, ∀ b, .bracket b ∈ p → b.Plain)
    (hfits : ∀ p ∈ ps, (atoms? (written p)).all fits = true) :
    patterns (ps.map written) = ps.map fun p => ⟨written p, p.map Part.atom⟩ := by
  rw [patterns, List.filterMap_map, ← List.filterMap_eq_map]
  refine List.filterMap_congr fun p hp => ?_
  have hread := atoms?_written (hplain p hp)
  have hfit := hfits p hp
  rw [hread, Option.all_some] at hfit
  rw [Function.comp_apply, ofText?_eq_some hread hfit]
  rfl

/-- The pattern reported is the first one that denotes the name. -/
theorem pattern?_written (hplain : ∀ p ∈ ps, ∀ b, .bracket b ∈ p → b.Plain)
    (hfits : ∀ p ∈ ps, (atoms? (written p)).all fits = true) (name : Text) :
    pattern? (ps.map written) name =
      (ps.find? fun p => accepts (p.map Part.atom) name).map written := by
  rw [pattern?, patterns_written hplain hfits, HiddenPattern.first?, List.find?_map, Option.map_map]
  rfl

theorem accepts_atoms_iff (p : List Part) (name : Text) :
    accepts (p.map Part.atom) name = true ↔ Denotes p name :=
  accepts_iff.trans (matches_atoms_iff p name)

/-- **Hidden names.** Patterns with plain brackets that are not too large hide the names that one of
them denotes, and the first that denotes a name is reported for it. -/
theorem hides_iff_denotes (hplain : ∀ p ∈ ps, ∀ b, .bracket b ∈ p → b.Plain)
    (hfits : ∀ p ∈ ps, (atoms? (written p)).all fits = true) (name : Text) :
    (hides (ps.map written) name = true ↔ ∃ p ∈ ps, Denotes p name) ∧
      ∀ text, pattern? (ps.map written) name = some text ↔
        ∃ before p after, ps = before ++ p :: after ∧ (∀ q ∈ before, ¬ Denotes q name) ∧
          Denotes p name ∧ text = written p := by
  rw [hides_eq, pattern?_written hplain hfits]
  constructor
  · simp only [Option.isSome_map, List.find?_isSome, accepts_atoms_iff]
  · intro text
    simp only [Option.map_eq_some_iff, List.find?_eq_some_iff_append, accepts_atoms_iff,
      Bool.not_eq_true', ← Bool.not_eq_true]
    constructor
    · rintro ⟨p, ⟨hp, before, after, hps, hbefore⟩, rfl⟩
      exact ⟨before, p, after, hps, hbefore, hp, rfl⟩
    · rintro ⟨before, p, after, hps, hbefore, hp, rfl⟩
      exact ⟨p, ⟨hp, before, after, hps, hbefore⟩, rfl⟩

/-- The digits. -/
def digitBracket : Bracket :=
  { sign := .none, first := '0', others := ['-', '9'], unsigned := by decide, closed := by decide,
    ascending := by decide }

/-- The patterns `#*` and `v[0-9]`. -/
def backupPatterns : List (List Part) :=
  [[.plain '#' (by decide), .anyRun], [.plain 'v' (by decide), .bracket digitBracket]]

theorem plain_of_mem_backupPatterns :
    ∀ p ∈ backupPatterns, ∀ b, .bracket b ∈ p → b.Plain := by
  have hdigit : digitBracket.Plain := ⟨by decide, by decide, fun h => absurd h (by decide)⟩
  simp [backupPatterns, hdigit]

theorem fits_of_mem_backupPatterns :
    ∀ p ∈ backupPatterns, (atoms? (written p)).all fits = true := by
  have hset : digitBracket.charClass.set = [(0x30, 0x39)] :=
    CharClass.set_singleton (by decide) (by decide) (by decide)
  have hfits : ∀ p ∈ backupPatterns, fits (p.map Part.atom) = true := by
    simp only [backupPatterns, List.forall_mem_cons, fits, Draft.ofPattern, List.map_cons,
      List.map_nil, Part.atom, List.foldl_cons, List.foldr_cons, List.foldl_nil, List.foldr_nil,
      Draft.layAtom, hset]
    decide +kernel
  intro p hp
  rw [atoms?_written (plain_of_mem_backupPatterns p hp), Option.all_some]
  exact hfits p hp

theorem hides_iff_denotes_backupPatterns :
    ∃ before p after, backupPatterns = before ++ p :: after ∧
      (∀ q ∈ before, ¬ Denotes q "v3") ∧ Denotes p "v3" ∧
        ("v[0-9]" : Text) = written p := by
  have hfirst : pattern? (backupPatterns.map written) "v3" = some "v[0-9]" := by
    rw [pattern?_written plain_of_mem_backupPatterns fits_of_mem_backupPatterns]
    decide +kernel
  exact ((hides_iff_denotes plain_of_mem_backupPatterns fits_of_mem_backupPatterns "v3").2
    _).mp hfirst

/-- The characters from `+` to `-`, with the hyphen as the end of the range. -/
def plusBracket : Bracket :=
  { sign := .none, first := '+', others := ['-', '-'], unsigned := by decide, closed := by decide,
    ascending := by decide }

/-- The two hyphens take nothing away from the plus sign. -/
theorem atoms?_plusBracket :
    atoms? (written [.bracket plusBracket]) = some [.oneOf ⟨false, [⟨'+', '+'⟩], []⟩] := by
  have hnil : atoms? [] = some [] := by rw [atoms?.eq_def]
  have hread := atoms?_bracket (plusBracket.bracket?_text [])
    (k := ⟨false, [⟨'+', '+'⟩], []⟩) (by decide)
  rw [hnil] at hread
  exact hread

/-- A name that a pattern denotes need not be hidden. -/
theorem not_forall_hides_iff :
    ¬ ∀ (ps : List (List Part)) (name : Text),
      (∀ p ∈ ps, (atoms? (written p)).all fits = true) → '/' ∉ name →
        (hides (ps.map written) name = true ↔ ∃ p ∈ ps, Denotes p name) := by
  intro h
  have hdenotes : Denotes [.bracket plusBracket] [','] := by
    have hholds : plusBracket.Holds ',' := by
      have hmember : ∃ r ∈ members plusBracket.inner, r.lo ≤ ',' ∧ ',' ≤ r.hi :=
        ⟨⟨'+', '-'⟩, by decide, by decide, by decide⟩
      exact iff_of_true hmember rfl
    exact ⟨[','], [], rfl, ⟨',', hholds, rfl⟩, rfl⟩
  have hfit : fits [.oneOf ⟨false, [⟨'+', '+'⟩], []⟩] = true := by
    have hset : CharClass.set ⟨false, [⟨'+', '+'⟩], []⟩ = [(0x2B, 0x2B)] :=
      CharClass.set_singleton (by decide) (by decide) (by decide)
    simp only [fits, Draft.ofPattern, List.foldl_cons, List.foldr_cons, List.foldl_nil,
      List.foldr_nil, Draft.layAtom, hset]
    decide +kernel
  have hhidden := (h [[.bracket plusBracket]] [',']
    (by simp only [List.forall_mem_singleton, atoms?_plusBracket, Option.all_some, hfit])
    (by decide)).mpr ⟨_, List.mem_singleton_self _, hdenotes⟩
  have hshown : hides ([[.bracket plusBracket]].map written) [','] = false := by
    have hread := ofText?_eq_some atoms?_plusBracket hfit
    simp only [hides, patterns, List.map_cons, List.map_nil, List.filterMap_cons, hread]
    decide +kernel
  rw [hshown] at hhidden
  cases hhidden

end HiddenNames

end Webroot
