import Webroot.Proofs.Mount.Containment

/-!
# The path is conserved

Resolution moves segments from the path info to the script name and to the local path. It may stop
after any of them, with a file, a directory or an error, and in place of the last segment another
name may have been picked. Wherever it stops, nothing of the path is lost: its front, cut between
two segments, has moved to both places, and its rest is still the path info. A name that was picked
begins with the segment that it stands for, so that all it adds comes behind what has moved.

Main statement: `resolve_conserves`.
-/

namespace Webroot.Resolve

open Http

variable {t : FileTree} {o : MountOptions} {root : Text} {r : Request} {x : Exchange}

/-! ### Names that are picked -/

/-- What a name that is picked may **add** to the segment that was asked for: nothing, a language,
an index name, or an index name with a language. -/
inductive Adds (o : MountOptions) : Text → Prop
  | nothing : Adds o []
  | language {l : Text} : l ∈ o.acceptableLanguages → Adds o ('.' :: l)
  | index {i : Text} : i ∈ o.directoryIndex → Adds o i
  | indexLanguage {i l : Text} : i ∈ o.directoryIndex → l ∈ o.acceptableLanguages →
      Adds o (i ++ '.' :: l)

/-- A name that is picked begins with the segment that was asked for. -/
theorem exists_adds_of_pick {here base name : Text}
    (h : pick t o here base (languages o r) = some name) :
    ∃ added, name = base ++ added ∧ Adds o added := by
  obtain ⟨-, ⟨-, hvariant⟩ | ⟨rfl, i, hi, hvariant⟩⟩ := pick_eq_some h
  · rcases mem_variants.mp hvariant with rfl | ⟨l, hl, rfl⟩
    · exact ⟨[], (List.append_nil _).symm, .nothing⟩
    · exact ⟨'.' :: l, rfl, .language (mem_acceptable_of_mem_languages hl)⟩
  · rcases mem_variants.mp hvariant with rfl | ⟨l, hl, rfl⟩
    · exact ⟨i, rfl, .index hi⟩
    · exact ⟨i ++ '.' :: l, rfl, .indexLanguage hi (mem_acceptable_of_mem_languages hl)⟩

/-! ### Segments that have moved -/

/-- An exchange **conserves** the path of an earlier one: what was taken from its front has moved to
the script name and to the local path, where something may be added behind it, and the rest is left.
The path is cut between two of its names. -/
structure Conserves (root : Text) (x y : Exchange) (taken added : Text) : Prop where
  pathInfo : x.request.pathInfo = taken ++ y.request.pathInfo
  names : Path.names x.request.pathInfo = Path.names taken ++ Path.names y.request.pathInfo
  scriptName : y.request.scriptName = x.request.scriptName ++ taken ++ added
  filename : y.response.filename = some (root ++ taken ++ added)

/-- The segments of a path, cut in two anywhere, make up the path and have its names. -/
theorem segments_append {p : Text} {a b : List Text} (hp : p = [] ∨ Path.isAbsolute p = true)
    (h : [] :: segments p = a ++ b) :
    p = a.flatten ++ b.flatten ∧
      Path.names p = Path.names a.flatten ++ Path.names b.flatten := by
  have hbelow := Path.eq_below_names_iff.mpr hp
  rw [segments_eq_map_names] at h
  rcases List.cons_eq_append_iff.mp h with ⟨rfl, rfl⟩ | ⟨a, rfl, hsegs⟩
  · rw [flatten_names, ← hbelow]
    exact ⟨rfl, rfl⟩
  · obtain ⟨ns, ms, hnames, rfl, rfl⟩ := List.map_eq_append_iff.mp hsegs
    have hslash : ∀ n ∈ ns ++ ms, '/' ∉ n := by
      rw [← hnames]
      exact fun n => Path.slash_not_mem_of_mem_names
    have hns : ∀ n ∈ ns, '/' ∉ n := fun n hn => hslash n (List.mem_append_left ms hn)
    have hms : ∀ m ∈ ms, '/' ∉ m := fun m hm => hslash m (List.mem_append_right ns hm)
    rw [flatten_names, ← Path.below_eq_flatten, Path.names_below hns, Path.names_below hms,
      ← Path.below_append, ← hnames]
    exact ⟨hbelow, rfl⟩

/-- Segments that have moved are conserved, with what is added behind them. -/
theorem conserves_moved (root : Text) {a b : List Text}
    (hpath : x.request.pathInfo = [] ∨ Path.isAbsolute x.request.pathInfo = true)
    (h : [] :: segments x.request.pathInfo = a ++ b) (added : Text) :
    Conserves root x (moved root x (a.flatten ++ added) b) a.flatten added := by
  obtain ⟨hflatten, hnames⟩ := segments_append hpath h
  exact ⟨hflatten, hnames, (List.append_assoc ..).symm,
    congrArg some (List.append_assoc ..).symm⟩

/-- A request that misses has moved the segments that were passed. -/
theorem Misses.exchange_eq {pre rest : List Text} {base : Text} (ho : o.Silent)
    (hpath : x.request.pathInfo = [] ∨ Path.isAbsolute x.request.pathInfo = true)
    (h : Misses t o root x.request pre base rest) :
    (resolve t o root x).exchange = moved root x pre.flatten (base :: rest) := by
  obtain ⟨hflatten, -⟩ := segments_append hpath h.reaches.eq_append
  rw [h.resolve_eq ho, walked_entered ho]
  by_cases hpre : pre = []
  · subst hpre
    rw [List.flatten_nil, List.nil_append] at hflatten
    rw [if_pos rfl, hflatten]
    simp [moved]
  · simp [moved, hpre]

/-- **Conservation.** When the path info is empty or starts with a slash, resolution without
callbacks conserves it, whatever the result. Something is added only for a file, and then a
language, an index name, or an index name with a language. -/
theorem resolve_conserves (t : FileTree) (root : Text) (ho : o.Silent)
    (hpath : x.request.pathInfo = [] ∨ Path.isAbsolute x.request.pathInfo = true) :
    ∃ taken added, Conserves root x (resolve t o root x).exchange taken added ∧ Adds o added ∧
      ((resolve t o root x).result ≠ .ok .file → added = []) := by
  rcases finds_or_endsInDirectory_or_misses t o root x.request with
    ⟨pre, base, rest, name, hfinds⟩ | ⟨pre, left, hdir⟩ | ⟨pre, base, rest, hmiss⟩
  · obtain ⟨added, rfl, hadds⟩ := exists_adds_of_pick hfinds.picked
    have hsegs : [] :: segments x.request.pathInfo = (pre ++ [base]) ++ rest := by
      rw [hfinds.reaches.eq_append, List.append_assoc, List.singleton_append]
    have hmoved := conserves_moved root hpath hsegs added
    rw [hfinds.resolve_eq ho]
    refine ⟨(pre ++ [base]).flatten, added, ?_, hadds, fun hfile => absurd rfl hfile⟩
    simpa using hmoved
  · have hsegs : [] :: segments x.request.pathInfo = (pre ++ left.take 1) ++ left.drop 1 := by
      rw [hdir.reaches.eq_append, List.append_assoc, List.take_append_drop]
    have hmoved := conserves_moved root hpath hsegs []
    rw [hdir.resolve_eq ho]
    refine ⟨(pre ++ left.take 1).flatten, [], ?_, .nothing, fun _ => rfl⟩
    simpa using hmoved
  · have hmoved := conserves_moved root hpath hmiss.reaches.eq_append []
    rw [hmiss.exchange_eq ho hpath]
    refine ⟨pre.flatten, [], ?_, .nothing, fun _ => rfl⟩
    simpa using hmoved

/-- A request for the root directory of a mount below `/fr`. -/
def frenchRootExchange : Exchange :=
  { request := { Request.new .get "/fr/" with scriptName := "/fr", pathInfo := "/" } }

theorem resolve_conserves_frenchRootExchange :
    Conserves "/www" frenchRootExchange
        (resolve Mount.frenchSetting.tree Mount.frenchMount.options "/www"
          frenchRootExchange).exchange "/" "index.html.fr" ∧
      Adds Mount.frenchMount.options "index.html.fr" := by
  have hleft : (resolve Mount.frenchSetting.tree Mount.frenchMount.options "/www"
      frenchRootExchange).exchange.request.pathInfo = [] := by
    decide +kernel
  have hscript : (resolve Mount.frenchSetting.tree Mount.frenchMount.options "/www"
      frenchRootExchange).exchange.request.scriptName = "/fr" ++ "/" ++ "index.html.fr" := by
    decide +kernel
  obtain ⟨taken, added, hconserves, hadds, -⟩ := resolve_conserves
    Mount.frenchSetting.tree "/www" (o := Mount.frenchMount.options) (x := frenchRootExchange)
    ⟨rfl, rfl, rfl⟩ (.inr rfl)
  obtain rfl : taken = "/" := by
    have hpath := hconserves.pathInfo
    rw [hleft, List.append_nil] at hpath
    exact hpath.symm
  obtain rfl : added = "index.html.fr" := by
    have hadded := hconserves.scriptName
    rw [hscript] at hadded
    exact (List.append_cancel_left hadded).symm
  exact ⟨hconserves, hadds⟩

end Webroot.Resolve
