import Webroot.Proofs.Mount.Containment

/-!
# Hidden names among the names of a file

The walk refuses hidden segments, but the name of the file is picked only after the last segment
was checked. So the names that are walked are never hidden, and neither is a file under the name
that was asked for; an index file or the variant for a language may be.

Main statement: `forall_not_hidden_iff`, which says that this is the only way in which a hidden name
gets into the path of a file.
-/

namespace Webroot.Resolve

open Http

variable {t : FileTree} {o : MountOptions} {root : Text} {r : Request} {x : Exchange}

/-- The names in the path found are the ones walked and then those in the name picked. -/
theorem Finds.exists_taken {pre rest : List Text} {base name : Text} {ns : List Text}
    (hslash : ∀ n ∈ ns, '/' ∉ n) (hns : Path.below ns = pre.flatten ++ name)
    (h : Finds t o root r pre base rest name) :
    ∃ taken, ns = taken ++ Path.names name ∧ ∀ n ∈ taken, o.hidden.hides n = false := by
  rcases h.eq_nil_or_exists_names with ⟨rfl, -⟩ | ⟨taken, n, tail, hnames, rfl, rfl⟩
  · refine ⟨[], ?_, by simp⟩
    rw [List.nil_append, ← Path.names_below hslash, hns, List.flatten_nil, List.nil_append]
  · obtain ⟨stem, n', rfl, -⟩ := exists_name_of_pick h.picked
    refine ⟨taken, ?_, fun m hm => ?_⟩
    · have htaken : ∀ m ∈ taken, '/' ∉ m := by
        intro m hm
        exact Path.slash_not_mem_of_mem_names (by rw [hnames]; exact List.mem_append_left _ hm)
      rw [← Path.names_below hslash, hns, flatten_names, Path.names_append rfl,
        Path.names_below htaken]
    · obtain ⟨-, -, -, hhidden⟩ := refuses_slash_eq_false.mp (h.reaches.allowed_names m hm).1
      exact hhidden

/-- A file found under the name that was asked for is not hidden. -/
theorem Finds.not_hidden_of_eq {pre rest : List Text} {base : Text}
    (h : Finds t o root r pre base rest base) :
    ∀ n ∈ Path.names base, o.hidden.hides n = false := by
  rcases h.eq_nil_or_exists_names with ⟨-, rfl, -⟩ | ⟨taken, n, tail, hnames, -, rfl⟩
  · simp [Path.names]
  · have hslash : '/' ∉ n := Path.slash_not_mem_of_mem_names (by rw [hnames]; simp)
    obtain ⟨-, -, -, hhidden⟩ := refuses_slash_eq_false.mp h.allowed
    simpa [Path.names_singleton hslash] using hhidden

/-- **Disclosure.** No name in the path of a file found is hidden exactly when the file was found
under the name that was asked for, or the name picked in its place holds no hidden name. -/
theorem forall_not_hidden_iff {ns : List Text} (ho : o.Silent) (hslash : ∀ n ∈ ns, '/' ∉ n)
    (hfile : (resolve t o root x).result = .ok .file)
    (hpath : (resolve t o root x).exchange.response.filename = some (root ++ Path.below ns)) :
    (∀ n ∈ ns, o.hidden.hides n = false) ↔
      ∀ pre base rest name, Finds t o root x.request pre base rest name → name ≠ base →
        ∀ n ∈ Path.names name, o.hidden.hides n = false := by
  have hbelow : ∀ {pre base rest name}, Finds t o root x.request pre base rest name →
      Path.below ns = pre.flatten ++ name := by
    intro pre base rest name h
    rw [h.resolve_eq ho] at hpath
    exact (List.append_cancel_left (Option.some.inj hpath)).symm
  constructor
  · -- the names in the one picked are the last names of the path
    intro hns pre base rest name h _ n hn
    obtain ⟨taken, rfl, -⟩ := h.exists_taken hslash (hbelow h)
    exact hns n (List.mem_append_right taken hn)
  · intro hpicked n hn
    obtain ⟨pre, base, rest, name, h⟩ := exists_finds_of_resolve ho hfile
    obtain ⟨taken, rfl, htaken⟩ := h.exists_taken hslash (hbelow h)
    rcases List.mem_append.mp hn with hn | hn
    · exact htaken n hn
    · by_cases heq : name = base
      · subst heq
        exact h.not_hidden_of_eq n hn
      · exact hpicked pre base rest name h heq n hn

/-- The options of a mount in which the French pages are hidden. -/
def frenchHidden : MountOptions := { acceptableLanguages := ["fr"], hidden := ["*.fr"] }

/-- A request for a page that is there in French only. -/
def pageExchange : Exchange := { request := .new .get "/page.html" }

theorem resolve_frenchHidden :
    (resolve Mount.frenchSetting.tree frenchHidden "/www" pageExchange).result = .ok .file ∧
      (resolve Mount.frenchSetting.tree frenchHidden "/www"
        pageExchange).exchange.response.filename =
          some ("/www" ++ Path.below ["page.html.fr"]) := by
  decide +kernel

theorem forall_not_hidden_iff_frenchHidden :
    (∀ n ∈ [("page.html.fr" : Text)], frenchHidden.hidden.hides n = false) ↔
      ∀ pre base rest name,
        Finds Mount.frenchSetting.tree frenchHidden "/www" pageExchange.request pre base rest name →
          name ≠ base → ∀ n ∈ Path.names name, frenchHidden.hidden.hides n = false :=
  forall_not_hidden_iff ⟨rfl, rfl, rfl⟩ (by decide) resolve_frenchHidden.1 resolve_frenchHidden.2

/-- A file may be found under a hidden name. -/
theorem not_forall_not_hidden :
    ¬ ∀ (t : FileTree) (o : MountOptions) (root : Text) (x : Exchange) (ns : List Text),
      o.Silent → o.userDir = none → (∀ n ∈ ns, '/' ∉ n) →
        (resolve t o root x).result = .ok .file →
          (resolve t o root x).exchange.response.filename = some (root ++ Path.below ns) →
            ∀ n ∈ ns, o.hidden.hides n = false := by
  intro h
  have hvisible := h Mount.frenchSetting.tree frenchHidden "/www" pageExchange ["page.html.fr"]
    ⟨rfl, rfl, rfl⟩ rfl (by decide) resolve_frenchHidden.1 resolve_frenchHidden.2
    "page.html.fr" (List.mem_singleton_self _)
  have hhides : frenchHidden.hidden.hides "page.html.fr" = true := by decide +kernel
  exact Bool.false_ne_true (hvisible.symm.trans hhides)

end Webroot.Resolve
