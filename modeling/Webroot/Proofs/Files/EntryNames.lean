import Webroot.Proofs.Mount.Containment
import Webroot.Proofs.Text.LossyUtf8

/-!
# Names in directories

A directory has names of octets, and requests ask for texts. The names that a directory can have
(`EntryName`) are the octets of plain texts, and other octets besides; what is shown of any of them
is a plain text (`EntryName.plainName`), for reading makes up no slash, no NUL and no dots.
-/

namespace Webroot

/-- Octets may be the **name of an entry** when they are not empty, hold no slash and no NUL and are
no dots. -/
structure EntryName (n : Octets) : Prop where
  ne_nil : n ≠ []
  slash : FileTree.slash ∉ n
  nul : 0 ∉ n
  dot : n ≠ FileTree.dot
  dots : n ≠ FileTree.dots

instance (n : Octets) : Decidable (EntryName n) :=
  decidable_of_iff
    (n ≠ [] ∧ FileTree.slash ∉ n ∧ 0 ∉ n ∧ n ≠ FileTree.dot ∧ n ≠ FileTree.dots)
    ⟨fun h => ⟨h.1, h.2.1, h.2.2.1, h.2.2.2.1, h.2.2.2.2⟩,
      fun h => ⟨h.ne_nil, h.slash, h.nul, h.dot, h.dots⟩⟩

/-- What is shown of the name of an entry is plain. -/
theorem EntryName.plainName {n : Octets} (h : EntryName n) : PlainName (Utf8.decodeLossy n) where
  slash hmem := h.slash (Utf8.mem_of_mem_decodeLossy (by decide) hmem)
  nul hmem := h.nul (Utf8.mem_of_mem_decodeLossy (by decide) hmem)
  dot hdot := h.dot (Utf8.eq_encode_of_decodeLossy (by simp) hdot)
  dots hdots := h.dots (Utf8.eq_encode_of_decodeLossy (by simp) hdots)

theorem EntryName.decodeLossy_ne_nil {n : Octets} (h : EntryName n) : Utf8.decodeLossy n ≠ [] :=
  Utf8.decodeLossy_ne_nil h.ne_nil

/-- The octets of a plain name may be the name of an entry. -/
theorem PlainName.entryName_encode {n : Text} (h : PlainName n) (hne : n ≠ []) :
    EntryName (Utf8.encode n) where
  ne_nil := Utf8.encode_ne_nil hne
  slash hmem := h.slash (Utf8.mem_of_mem_encode (c := '/') (by decide) hmem)
  nul hmem := h.nul (Utf8.mem_of_mem_encode (c := '\x00') (by decide) hmem)
  dot hdot := h.dot (Utf8.encode_injective (u := ['.']) hdot)
  dots hdots := h.dots (Utf8.encode_injective (u := ['.', '.']) hdots)

end Webroot
