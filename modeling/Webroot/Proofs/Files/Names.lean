import Webroot.Files.Path
import Webroot.Proofs.Text.Basic

/-!
# Names below a directory

A path below a directory is a sequence of **names**, each with the slash before it. `Path.below`
writes such a path and `Path.names` reads it.

Main statements: no name holds a slash (`slash_not_mem_of_mem_names`), and on names without a
slash reading undoes writing (`names_below`), so a path has one list of names only.
-/

namespace Webroot.Path

/-- The names in a path: the texts that follow its slashes. -/
def names (p : Text) : List Text := (p.splitOn '/').tail

/-- The path that leads through names in order, with a slash before each. -/
def below (ns : List Text) : Text := ns.flatMap ('/' :: ·)

@[simp]
theorem below_nil : below [] = [] := rfl

@[simp]
theorem below_cons (n : Text) (ns : List Text) : below (n :: ns) = '/' :: (n ++ below ns) := rfl

theorem below_append (ms ns : List Text) : below (ms ++ ns) = below ms ++ below ns :=
  List.flatMap_append

/-- A path is continued by one more name. -/
theorem append_below_concat (root : Text) (ns : List Text) (n : Text) :
    root ++ below (ns ++ [n]) = root ++ below ns ++ '/' :: n := by
  rw [below_append, List.append_assoc, below_cons, below_nil, List.append_nil]

/-- What is not absolute is joined to the path of a directory behind its slash. -/
theorem join_below (root : Text) (ns : List Text) {n : Text} (hn : isAbsolute n = false) :
    join (root ++ below (ns ++ [[]])) n = root ++ below ns ++ '/' :: n := by
  have hend : endsInSlash (root ++ below ns ++ ['/']) = true := by
    simp [endsInSlash]
  rw [append_below_concat, join, hn, hend, Bool.or_true, if_neg Bool.false_ne_true, if_pos rfl,
    List.append_assoc, List.singleton_append]

theorem below_eq_nil_iff {ns : List Text} : below ns = [] ↔ ns = [] := by
  cases ns <;> simp

theorem below_eq_flatten (ns : List Text) : below ns = (ns.map ('/' :: ·)).flatten :=
  List.flatMap_def

/-- Pieces between slashes are the first piece and a path below it. -/
theorem intercalate_cons_eq_append_below (a : Text) (ns : List Text) :
    ['/'].intercalate (a :: ns) = a ++ below ns := by
  induction ns generalizing a with
  | nil => simp
  | cons n ns ih => rw [List.intercalate_cons_cons, ih n, below_cons, List.append_assoc]; rfl

/-! ### Names hold no slash -/

theorem not_mem_of_mem_splitOn {sep : Char} {p n : Text} (h : n ∈ p.splitOn sep) : sep ∉ n := by
  rw [List.splitOn_eq_splitOnP] at h
  intro hsep
  have hne := Text.not_of_mem_splitOnP h sep hsep
  rw [beq_self_eq_true] at hne
  cases hne

/-- No name in a path holds a slash. -/
theorem slash_not_mem_of_mem_names {p n : Text} (h : n ∈ names p) : '/' ∉ n :=
  not_mem_of_mem_splitOn (List.mem_of_mem_tail h)

/-! ### Reading undoes writing -/

/-- The names in a path below a directory are those it leads through. -/
theorem names_below {ns : List Text} (h : ∀ n ∈ ns, '/' ∉ n) : names (below ns) = ns := by
  have hall : ∀ n ∈ [] :: ns, '/' ∉ n := by simpa using h
  have hjoin : below ns = ['/'].intercalate ([] :: ns) := by
    rw [intercalate_cons_eq_append_below, List.nil_append]
  rw [names, hjoin, List.splitOn_intercalate '/' hall (List.cons_ne_nil _ _), List.tail_cons]

theorem names_cons_slash (p : Text) : names ('/' :: p) = p.splitOn '/' := by
  simp [names, List.splitOn_cons_eq_if_modifyHead]

/-- The names in two paths one after the other. -/
theorem names_append {p q : Text} (h : isAbsolute q = true) :
    names (p ++ q) = names p ++ names q := by
  cases q with
  | nil => simp [isAbsolute] at h
  | cons c q =>
    obtain rfl : c = '/' := by simpa [isAbsolute] using h
    rw [names_cons_slash, names, names, List.splitOn_append_cons_self,
      List.tail_append_of_ne_nil (List.splitOn_ne_nil '/' p)]

/-- A path is what stands before its first slash, and then the path through its names. -/
theorem exists_eq_append_below (p : Text) :
    ∃ start, '/' ∉ start ∧ p = start ++ below (names p) := by
  obtain ⟨start, ns, hsplit⟩ := List.exists_cons_of_ne_nil (List.splitOn_ne_nil '/' p)
  refine ⟨start, not_mem_of_mem_splitOn (by rw [hsplit]; exact List.mem_cons_self), ?_⟩
  rw [names, hsplit, List.tail_cons, ← intercalate_cons_eq_append_below, ← hsplit,
    List.intercalate_splitOn]

/-- Nothing stands before the first slash of a path that is empty or starts with a slash. -/
theorem eq_nil_iff_of_append_below {p start : Text} {ns : List Text} (hstart : '/' ∉ start)
    (hp : p = start ++ below ns) : start = [] ↔ p = [] ∨ isAbsolute p = true := by
  constructor
  · rintro rfl
    rw [hp, List.nil_append]
    cases ns with
    | nil => exact .inl rfl
    | cons n ns => exact .inr rfl
  · rintro (rfl | habsolute)
    · exact (List.append_eq_nil_iff.mp hp.symm).1
    · cases start with
      | nil => rfl
      | cons c start =>
        obtain rfl : c = '/' := by simpa [isAbsolute, hp] using habsolute
        exact absurd List.mem_cons_self hstart

/-- A path is the path through its names when it is empty or starts with a slash. -/
theorem eq_below_names_iff {p : Text} : p = below (names p) ↔ p = [] ∨ isAbsolute p = true := by
  obtain ⟨start, hstart, hp⟩ := exists_eq_append_below p
  rw [← eq_nil_iff_of_append_below hstart hp]
  constructor
  · intro h
    rw [← h] at hp
    exact List.self_eq_append_left.mp hp
  · rintro rfl
    exact hp

/-- A path that starts with a slash is the path through its names. -/
theorem eq_below_names {p : Text} (h : isAbsolute p = true) : p = below (names p) :=
  eq_below_names_iff.mpr (.inr h)

theorem exists_eq_append_slash {p : Text} (h : endsInSlash p = true) : ∃ q, p = q ++ ['/'] := by
  have hlast : p.getLast? = some '/' := by simpa [endsInSlash] using h
  exact (List.getLast?_eq_some_iff.mp hlast)

/-- A path is cut at its last slash. -/
theorem exists_eq_append_name {p : Text} (h : '/' ∈ p) :
    ∃ dir name, p = dir ++ '/' :: name ∧ '/' ∉ name := by
  obtain ⟨name, dir, hreverse, hname⟩ := List.eq_append_cons_of_mem (List.mem_reverse.mpr h)
  refine ⟨dir.reverse, name.reverse, ?_, by simpa using hname⟩
  rw [← List.reverse_inj, hreverse]
  simp

/-- The names in a path that goes on behind a slash. -/
theorem names_append_slash (p t : Text) : names (p ++ '/' :: t) = names p ++ t.splitOn '/' := by
  rw [names_append rfl, names_cons_slash]

/-- The pieces of a path between slashes, each with a slash before it. -/
theorem below_splitOn (t : Text) : below (t.splitOn '/') = '/' :: t := by
  rw [← names_cons_slash, ← eq_below_names rfl]

/-- A name is the only one in the path that leads through it alone. -/
theorem names_singleton {n : Text} (h : '/' ∉ n) : names ('/' :: n) = [n] := by
  rw [names_cons_slash, List.splitOn_eq_singleton h]

end Webroot.Path
