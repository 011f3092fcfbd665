import Mathlib.Tactic.SplitIfs
import Webroot.Proofs.Files.EntryNames

/-!
# Flat trees

A **flat tree** holds empty files with given names in its root directory, and nothing else. What the
files of a tree can bring about is shown with these: any names may stand together in one, as long as
each may be the name of a file (`FileName`). A path to a name leads to its file or nowhere
(`isFile_flat`).
-/

namespace Webroot

/-- A plain name may be the **name of a file** when it is neither empty nor too long. -/
structure FileName (n : Text) : Prop extends PlainName n where
  ne_nil : n ≠ []
  length_le : (Utf8.encode n).length ≤ FileTree.maxName

instance (n : Text) : Decidable (FileName n) :=
  decidable_of_iff (PlainName n ∧ n ≠ [] ∧ (Utf8.encode n).length ≤ FileTree.maxName)
    ⟨fun ⟨hplain, hne, hlength⟩ => ⟨hplain, hne, hlength⟩,
      fun h => ⟨h.toPlainName, h.ne_nil, h.length_le⟩⟩

namespace FileTree

/-- An empty file. -/
def emptyFile : Item := { node := .file [], serial := 0, modified := ⟨0, 0⟩ }

/-- The tree that holds empty files with these names. -/
def flat (names : List Text) : FileTree := ⟨names.map fun n => ([Utf8.encode n], emptyFile)⟩

variable {names : List Text} {n : Text}

theorem item?_flat_nil (names : List Text) :
    (flat names).item? [] = some { node := .directory, serial := 0, modified := ⟨0, 0⟩ } := by
  have hnone : (flat names).items.lookup [] = none := by
    rw [List.lookup_eq_none_iff]
    intro p hp
    obtain ⟨m, -, rfl⟩ := List.mem_map.mp hp
    rfl
  rw [item?, hnone]
  rfl

theorem item?_flat_singleton (names : List Text) (n : Text) :
    (flat names).item? [Utf8.encode n] = if n ∈ names then some emptyFile else none := by
  rw [item?, flat]
  induction names with
  | nil => rfl
  | cons m names ih =>
    rw [List.map_cons, List.lookup_cons]
    by_cases hm : n = m
    · subst hm
      simp
    · have hplace : ([Utf8.encode n] == [Utf8.encode m]) = false := by
        simpa using fun heq => hm (Utf8.encode_injective heq)
      rw [hplace]
      simpa [hm] using ih

/-- The path to a name has one step. -/
theorem steps_slash_slash {n : Octets} (hn : n ≠ []) (hslash : slash ∉ n) :
    steps (slash :: slash :: n) = [n] := by
  obtain ⟨b, rest, rfl⟩ := List.exists_cons_of_ne_nil hn
  have hend : ((slash :: slash :: b :: rest).getLast? == some slash) = false := by
    rw [List.getLast?_cons_cons, List.getLast?_cons_cons, beq_eq_false_iff_ne]
    exact fun hlast => hslash (List.mem_of_getLast? hlast)
  have hpieces : (slash :: slash :: b :: rest).splitOn slash = [[], [], b :: rest] := by
    rw [← List.nil_append (slash :: slash :: b :: rest), List.splitOn_append_cons_self,
      ← List.nil_append (slash :: b :: rest), List.splitOn_append_cons_self,
      List.splitOn_eq_singleton hslash]
    rfl
  rw [steps, hpieces, hend]
  rfl

/-- A path to a name leads to its file or nowhere. -/
theorem stat_flat (hn : FileName n) :
    (flat names).stat ('/' :: '/' :: n) =
      if n ∈ names then .ok emptyFile else .error .notFound := by
  have hoctets : Utf8.encode ('/' :: '/' :: n) = slash :: slash :: Utf8.encode n := rfl
  have hentry := hn.toPlainName.entryName_encode hn.ne_nil
  have hnul : (slash :: slash :: Utf8.encode n).contains 0 = false := by
    simpa [slash] using hentry.nul
  have hshort : ¬maxPath ≤ (slash :: slash :: Utf8.encode n).length := by
    have hlength := hn.length_le
    simp only [maxName, maxPath, List.length_cons] at hlength ⊢
    omega
  rw [stat, find, hoctets, locate, if_neg (by simp), hnul, if_neg Bool.false_ne_true,
    if_neg hshort, steps_slash_slash hentry.ne_nil hentry.slash, follow, item?_flat_nil]
  simp only [walk, Item.isDirectory, Bool.not_true, Bool.false_eq_true, if_false,
    if_neg hentry.dot, if_neg hentry.dots, if_neg (Nat.not_lt.mpr hn.length_le),
    List.nil_append, item?_flat_singleton]
  by_cases hmem : n ∈ names
  · simp only [if_pos hmem]
    rfl
  · simp only [if_neg hmem]
    rfl

theorem isFile_flat (hn : FileName n) :
    (flat names).isFile ('/' :: '/' :: n) = true ↔ n ∈ names := by
  rw [isFile, stat_flat hn]
  by_cases hmem : n ∈ names
  · rw [if_pos hmem]
    exact iff_of_true rfl hmem
  · rw [if_neg hmem]
    exact iff_of_false Bool.false_ne_true hmem

theorem isDirectory_flat (hn : FileName n) :
    (flat names).isDirectory ('/' :: '/' :: n) = false := by
  rw [isDirectory, stat_flat hn]
  split_ifs <;> rfl

/-- The root is a directory. -/
theorem isDirectory_flat_root (names : List Text) : (flat names).isDirectory ['/'] = true := by
  have hstat : (flat names).stat ['/'] =
      .ok { node := .directory, serial := 0, modified := ⟨0, 0⟩ } := by
    have hsteps : steps (Utf8.encode ['/']) = [dot] := by decide
    rw [stat, find, locate, if_neg (by decide), if_neg (by decide), if_neg (by decide), hsteps,
      follow, item?_flat_nil]
    rfl
  rw [isDirectory, hstat]
  rfl

end FileTree

end Webroot
