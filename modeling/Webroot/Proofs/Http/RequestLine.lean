import Webroot.Http.RequestReader
import Webroot.Proofs.Text.Basic
import Webroot.Proofs.Url.RoundTrip

/-!
# The path of a request that was read

The request line alone says what path a request is for: header lines add header fields and nothing
else (`read_eq`). A target that starts with a slash gives a path that starts with one
(`exists_path_of_read`), and the written form of a path gives that path (`new_escapePath`).
-/

namespace Webroot.Http.Request

open Text

/-- The target in the request line of the octets that a client sent, as it was sent. -/
def target? (octets : Octets) : Option Text :=
  match Utf8.decode? octets with
  | none => none
  | some t =>
    match words ((lines (headOf (trimEnd (· == '\x00') t))).headD []) with
    | [_, target, _] => some target
    | _ => none

/-! ### Heads -/

/-- A text without carriage returns goes before the part that ends at the first empty line. -/
theorem headOf_append {t : Text} (h : '\r' ∉ t) (rest : Text) :
    headOf (t ++ rest) = t ++ headOf rest := by
  have hcut : cutAt "\r\n\r\n" (t ++ rest) =
      (cutAt "\r\n\r\n" rest).map fun ab => (t ++ ab.1, ab.2) :=
    cutAt_append h "\n\r\n" rest
  rw [headOf, headOf, hcut]
  cases cutAt "\r\n\r\n" rest with
  | none => rfl
  | some ab => rfl

/-! ### Header lines -/

/-- A header line changes nothing but the header fields. -/
theorem readField_eq {r r' : Request} {line : Text} (h : readField r line = .ok r') :
    r' = { r with fields := r'.fields } := by
  rw [readField] at h
  split at h
  · obtain rfl := Except.ok.inj h
    rfl
  · split at h
    · obtain rfl := Except.ok.inj h
      rfl
    · cases h

theorem foldlM_readField_eq {r r' : Request} {lines : List Text}
    (h : lines.foldlM readField r = .ok r') : r' = { r with fields := r'.fields } := by
  induction lines generalizing r with
  | nil =>
    obtain rfl := Except.ok.inj h
    rfl
  | cons line lines ih =>
    rw [List.foldlM_cons] at h
    cases hline : readField r line with
    | error f =>
      rw [hline] at h
      cases h
    | ok r₁ =>
      rw [hline] at h
      rw [ih h, readField_eq hline]

/-! ### The request line -/

theorem readLine_eq {line : Text} {r : Request} (h : readLine line = .ok r) :
    ∃ method target version, words line = [method, target, version] ∧
      ∃ m, Method.ofName? method = some m ∧ r = new m target := by
  rw [readLine] at h
  split at h
  · rename_i method target version hwords
    refine ⟨method, target, version, hwords, ?_⟩
    split at h
    · cases h
    · rename_i m hm
      split at h
      · exact ⟨m, hm, (Except.ok.inj h).symm⟩
      · cases h
  · cases h

/-- The request line gives a head its method and its target. -/
theorem readHead_eq {head : Text} {r : Request} (h : readHead head = .ok r) :
    ∃ method target version, words ((lines head).headD []) = [method, target, version] ∧
      ∃ m, Method.ofName? method = some m ∧ r = { new m target with fields := r.fields } := by
  rw [readHead] at h
  split at h
  · cases h
  · rename_i line fields hlines
    cases hline : readLine line with
    | error f =>
      rw [hline] at h
      cases h
    | ok r₀ =>
      rw [hline] at h
      obtain ⟨method, target, version, hwords, m, hm, rfl⟩ := readLine_eq hline
      refine ⟨method, target, version, ?_, m, hm, foldlM_readField_eq h⟩
      rw [hlines, List.headD_cons, hwords]

/-- A text is read from its head, without the NULs at its end. -/
theorem read_of_text {octets : Octets} {t : Text} (h : Utf8.decode? octets = some t) (id : Nat) :
    read octets id =
      (readHead (headOf (trimEnd (· == '\x00') t))).map fun r => { r with id } := by
  rw [read, h]
  dsimp only
  cases readHead (headOf (trimEnd (· == '\x00') t)) <;> rfl

theorem read_of_not_text {octets : Octets} (h : Utf8.decode? octets = none) (id : Nat) :
    read octets id = .error .notText := by
  rw [read, h]

/-- A request is read from octets that are a text, from the part before the first empty line. -/
theorem exists_readHead_of_read {octets : Octets} {id : Nat} {r : Request}
    (h : read octets id = .ok r) :
    ∃ t r₁, Utf8.decode? octets = some t ∧
      readHead (headOf (trimEnd (· == '\x00') t)) = .ok r₁ ∧ r = { r₁ with id } := by
  rw [read] at h
  split at h
  · cases h
  · rename_i t hdecode
    cases hhead : readHead (headOf (trimEnd (· == '\x00') t)) with
    | error f =>
      rw [hhead] at h
      cases h
    | ok r₁ =>
      rw [hhead] at h
      exact ⟨t, r₁, hdecode, hhead, (Except.ok.inj h).symm⟩

/-- A request that was read is the one for its target, but for its number and its fields. -/
theorem read_eq {octets : Octets} {id : Nat} {r : Request} (h : read octets id = .ok r) :
    ∃ m target, target? octets = some target ∧
      r = { new m target with id, fields := r.fields } := by
  obtain ⟨t, r₁, hdecode, hhead, rfl⟩ := exists_readHead_of_read h
  obtain ⟨method, target, version, hwords, m, -, hr⟩ := readHead_eq hhead
  refine ⟨m, target, ?_, ?_⟩
  · simp only [target?, hdecode, hwords]
  · rw [hr]

/-! ### Targets that start with a slash -/

/-- The path for a target that starts with a slash starts with a slash. -/
theorem exists_path_new (m : Method) (t : Text) : ∃ p, (new m ('/' :: t)).path = '/' :: p := by
  -- a target is cut behind its first character, which is no question mark
  have hcut : cut '?' ('/' :: t) = none ∨ ∃ a b, cut '?' ('/' :: t) = some ('/' :: a, b) := by
    rw [cut, if_neg (by decide)]
    cases cut '?' t with
    | none => exact .inl rfl
    | some ab => exact .inr ⟨ab.1, ab.2, rfl⟩
  rw [new]
  rcases hcut with hcut | ⟨a, b, hcut⟩
  · rw [hcut]
    exact ⟨_, Url.unescape_slash t⟩
  · rw [hcut]
    exact ⟨_, Url.unescape_slash a⟩

theorem exists_path_of_read {octets : Octets} {id : Nat} {r : Request}
    (h : read octets id = .ok r) {t : Text} (htarget : target? octets = some ('/' :: t)) :
    ∃ p, r.path = '/' :: p := by
  obtain ⟨m, target, htarget', hr⟩ := read_eq h
  obtain rfl := Option.some.inj (htarget'.symm.trans htarget)
  rw [hr]
  exact exists_path_new m t

/-! ### Targets are words -/

/-- The target of a request is a word of a line. -/
theorem exists_mem_words_of_target? {octets : Octets} {target : Text}
    (h : target? octets = some target) : ∃ line, target ∈ words line := by
  rw [target?] at h
  split at h
  · cases h
  · rename_i t _
    split at h
    · rename_i method target' version hwords
      obtain rfl := Option.some.inj h
      refine ⟨(lines (headOf (trimEnd (· == '\x00') t))).headD [], ?_⟩
      rw [hwords]
      exact List.mem_cons_of_mem _ List.mem_cons_self
    · cases h

/-- The query string of a request is what follows the first question mark of its target. -/
theorem queryString_new (m : Method) (target : Text) :
    (new m target).queryString = (cut '?' target).map (·.2) := by
  rw [new]
  cases cut '?' target with
  | none => rfl
  | some ab => rfl

/-- The query string of a request that was read holds no white space. -/
theorem isBlank_of_mem_queryString {octets : Octets} {id : Nat} {r : Request}
    (h : read octets id = .ok r) {q : Text} (hq : r.queryString = some q) :
    ∀ c ∈ q, isBlank c = false := by
  obtain ⟨m, target, htarget, hr⟩ := read_eq h
  obtain ⟨line, hword⟩ := exists_mem_words_of_target? htarget
  have hquery : (new m target).queryString = some q := by
    rw [hr] at hq
    exact hq
  rw [queryString_new] at hquery
  obtain ⟨⟨a, b⟩, hcut, rfl⟩ := Option.map_eq_some_iff.mp hquery
  intro c hc
  refine isBlank_of_mem_words hword c ?_
  rw [eq_of_cut_eq_some hcut]
  exact List.mem_append_right a (List.mem_cons_of_mem _ hc)

/-! ### Targets that are written paths -/

/-- The request for the written form of a path is a request for that path, all of which is still to
be walked. -/
theorem new_escapePath (method : Method) (path : Text) :
    new method (Url.escapePath path) =
      { id := 0, method, path, queryString := none, fields := ∅, scriptName := [],
        pathInfo := path } := by
  have hmark : '?' ∉ Url.escapePath path := Url.not_mem_escapePath (by decide +kernel) path
  simp only [new, Text.cut_eq_none hmark, Url.unescape_escapePath]

/-- A request **gets** a path when its method is GET and its target is the written form of the
path, whatever its number and its header fields are. -/
def Gets (r : Request) (path : Text) : Prop :=
  ∃ id fields, r = { new .get (Url.escapePath path) with id, fields }

theorem Gets.method {r : Request} {path : Text} (h : r.Gets path) : r.method = .get := by
  obtain ⟨id, fields, rfl⟩ := h
  rw [new_escapePath]

theorem Gets.pathInfo {r : Request} {path : Text} (h : r.Gets path) : r.pathInfo = path := by
  obtain ⟨id, fields, rfl⟩ := h
  rw [new_escapePath]

/-- Octets with that method and that target hold such a request. -/
theorem gets_of_read {octets : Octets} {id : Nat} {r : Request} {path : Text}
    (h : read octets id = .ok r) (hmethod : r.method = .get)
    (htarget : target? octets = some (Url.escapePath path)) : r.Gets path := by
  obtain ⟨method, target, htarget', hr⟩ := read_eq h
  obtain rfl := Option.some.inj (htarget'.symm.trans htarget)
  have hget : method = .get := by
    rw [hr] at hmethod
    rwa [new_escapePath] at hmethod
  subst hget
  exact ⟨id, r.fields, hr⟩

end Webroot.Http.Request
