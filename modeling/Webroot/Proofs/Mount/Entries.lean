import Mathlib.Tactic.SplitIfs
import Webroot.Mount.Listing
import Webroot.Proofs.Files.EntryNames

/-!
# The entries of a listing

The entries of a directory are its names that are not hidden, in the order of the tree, each with
what it leads to (`entries_eq_ok_iff`). In a **well-named** tree, one as file systems have them, the
name of an entry is a plain name, with a slash behind it when it leads to a directory
(`exists_name_of_mem_entries`). The name in the directory need not be a text; the name of the entry
is one all the same, and leads elsewhere then. A name that is a text leads from the page to where it
leads in the directory (`lookup_encode`).
-/

namespace Webroot

open Http

namespace FileTree

/-- A tree is **well named** when the names of every place in it may be names of entries. -/
def WellNamed (t : FileTree) : Prop := ∀ i ∈ t.items, ∀ n ∈ i.1, EntryName n

instance (t : FileTree) : Decidable t.WellNamed :=
  inferInstanceAs (Decidable (∀ i ∈ t.items, ∀ n ∈ i.1, EntryName n))

/-- A name in a directory is the last name of the place of an item. -/
theorem mem_names {t : FileTree} {dir : Place} {n : Octets} (h : n ∈ t.names dir) :
    ∃ i ∈ t.items, i.1 = dir ++ [n] := by
  obtain ⟨⟨p, item⟩, hitem, hname⟩ := List.mem_filterMap.mp h
  simp only [Option.ite_none_right_eq_some] at hname
  obtain ⟨hdir, hlast⟩ := hname
  obtain ⟨above, rfl⟩ := List.getLast?_eq_some_iff.mp hlast
  rw [List.dropLast_concat] at hdir
  exact ⟨(above ++ [n], item), hitem, by rw [hdir]⟩

theorem WellNamed.of_mem_list? {t : FileTree} (ht : t.WellNamed) {path : Text}
    {names : List Octets} (h : t.list? path = some names) : ∀ n ∈ names, EntryName n := by
  intro n hn
  obtain ⟨dir, rfl⟩ : ∃ dir, names = t.names dir := by
    rw [list?] at h
    split at h
    · split at h
      · exact ⟨_, (Option.some.inj h).symm⟩
      · cases h
    · cases h
  obtain ⟨i, hi, hplace⟩ := mem_names hn
  exact ht i hi n (by rw [hplace]; exact List.mem_append_right dir (List.mem_singleton_self n))

end FileTree

namespace Listing

variable {t : FileTree} {hidden : HiddenNames} {dir : Text} {es : List Entry}

/-- A name that is a text is looked up under its path. -/
theorem lookup_encode {n : Text} (hn : Path.isAbsolute n = false) (t : FileTree) (dir : Text) :
    lookup t dir (Utf8.encode n) = t.stat (Path.join dir n) := by
  have hjoin : Path.join dir n = Path.join dir [] ++ n := by
    have hnil : Path.isAbsolute [] = false := rfl
    simp only [Path.join, hn, hnil]
    split_ifs <;> simp
  rw [lookup, hjoin, FileTree.stat, Utf8.encode_append]

/-- The entry for a name in a directory. -/
def nameEntry (t : FileTree) (dir : Text) (n : Octets) : Entry :=
  entry (Utf8.decodeLossy n) (lookup t dir n)

theorem nameEntry_encode {n : Text} (hn : Path.isAbsolute n = false) (t : FileTree) (dir : Text) :
    nameEntry t dir (Utf8.encode n) = entry n (t.stat (Path.join dir n)) := by
  rw [nameEntry, Utf8.decodeLossy_encode, lookup_encode hn]

/-- The entries of a directory are those for its names that are not hidden. -/
theorem entries_eq_ok_iff :
    entries t hidden dir = .ok es ↔ ∃ names, t.list? dir = some names ∧
      es = (names.filter fun n => !hidden.hides (Utf8.decodeLossy n)).map (nameEntry t dir) := by
  have hkept : ∀ n, (HiddenPattern.first? hidden.patterns n).isNone = !hidden.hides n := by
    intro n
    rw [HiddenNames.hides, Option.not_isSome]
  rw [entries]
  cases t.list? dir with
  | none => simp
  | some names =>
    simp only [hkept, Except.ok.injEq, Option.some.injEq, exists_eq_left']
    exact eq_comm

/-- The name of an entry has a slash behind it exactly when it leads to a directory. -/
theorem entry_name (n : Text) (found : Except LookupError Item) :
    (entry n found).name = n ∧ (∀ i, found = .ok i → i.isDirectory = false) ∨
      (entry n found).name = n ++ ['/'] ∧ ∃ i, found = .ok i ∧ i.isDirectory = true := by
  cases found with
  | error e => exact .inl ⟨rfl, fun i h => nomatch h⟩
  | ok i =>
    cases hdir : i.isDirectory with
    | false =>
      refine .inl ⟨by simp [entry, hdir], fun j hj => ?_⟩
      obtain rfl := Except.ok.inj hj
      exact hdir
    | true => exact .inr ⟨by simp [entry, hdir], i, rfl, hdir⟩

/-- An entry stands for a name of the directory that is not hidden. -/
theorem exists_name_of_mem_entries (ht : t.WellNamed) (hes : entries t hidden dir = .ok es)
    {e : Entry} (he : e ∈ es) :
    ∃ n, EntryName n ∧ hidden.hides (Utf8.decodeLossy n) = false ∧ e = nameEntry t dir n := by
  obtain ⟨names, hlist, rfl⟩ := entries_eq_ok_iff.mp hes
  obtain ⟨n, hn, rfl⟩ := List.mem_map.mp he
  obtain ⟨hmem, hkept⟩ := List.mem_filter.mp hn
  exact ⟨n, ht.of_mem_list? hlist n hmem, by simpa using hkept, rfl⟩

/-- A hidden name is not the name of an entry, with or without a slash behind it. -/
theorem name_ne_of_hides (ht : t.WellNamed) (hes : entries t hidden dir = .ok es) {n : Text}
    (hn : '/' ∉ n) (hhidden : hidden.hides n = true) :
    ∀ e ∈ es, e.name ≠ n ∧ e.name ≠ n ++ ['/'] := by
  intro e he
  obtain ⟨k, hentry, hkept, rfl⟩ := exists_name_of_mem_entries ht hes he
  have hne : Utf8.decodeLossy k ≠ n := by
    rintro rfl
    rw [hkept] at hhidden
    cases hhidden
  rcases entry_name (Utf8.decodeLossy k) (lookup t dir k) with ⟨hname, -⟩ | ⟨hname, -⟩
  · refine ⟨by rwa [nameEntry, hname], ?_⟩
    rw [nameEntry, hname]
    intro heq
    exact hentry.plainName.slash (by rw [heq]; simp)
  · refine ⟨?_, ?_⟩
    · rw [nameEntry, hname]
      rintro rfl
      exact hn (by simp)
    · rw [nameEntry, hname]
      intro heq
      exact hne (List.append_cancel_right heq)

theorem sort_perm (es : List Entry) (key : SortKey) (order : SortOrder) :
    (sort es key order).Perm es := by
  cases order with
  | ascending => exact List.mergeSort_perm es _
  | descending => exact List.mergeSort_perm es _

end Listing

/-- A directory whose names can be read is answered with their page, sorted as the query says. -/
theorem serveListing_eq {t : FileTree} {hidden : HiddenNames} {dir : Text}
    {es : List Listing.Entry} (hes : Listing.entries t hidden dir = .ok es) (request : Request)
    (response : Response) :
    serveListing t hidden request response dir =
      ⟨.ok .ok, (response.setStatus 200).setPage
        (Listing.page request.path ((request.host?).getD []) (Listing.sorting request.query).2
          (Listing.parent t dir :: Listing.sort es (Listing.sorting request.query).1
            (Listing.sorting request.query).2))⟩ := by
  simp only [serveListing, hes]

end Webroot
