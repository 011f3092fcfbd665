import Mathlib.Data.List.Induction
import Webroot.Mount.HandlerTable
import Webroot.Proofs.Http.Suffixes

/-!
# Handlers that come and go

Handlers are added to the table of a mount and to the global one, and removed from them again, while
requests are served. What a table holds at last is compared with the **history** of what was done: a
handler is **live** for a key when the last change there that was about this key added it. A step
lemma says what one change does to one key (`HandlerTable.Change.getElem?_apply`), and by induction
each table holds what is live (`HandlerTables.getElem?_after`).

Keys and suffixes have to fit together: the key of a suffix that was read from a name is that suffix
itself (`HandlerTable.key_of_suffix`), so a handler is found whatever the case and the dots of the
suffix under which it was added.

Main statement: `HandlerTables.after_history`.
-/

namespace Webroot

open Http Text

namespace HandlerTable

/-! ### Keys -/

/-- A key is what follows the dots in front of a suffix, in lower case. -/
theorem exists_key_eq (suffix : Text) :
    ∃ dots w, suffix = List.replicate dots '.' ++ w ∧ w.head? ≠ some '.' ∧
      key suffix = lower w := by
  refine ⟨(suffix.takeWhile (· == '.')).length, suffix.dropWhile (· == '.'), ?_, ?_, rfl⟩
  · have hdots : suffix.takeWhile (· == '.') =
        List.replicate (suffix.takeWhile (· == '.')).length '.' := by
      rw [List.eq_replicate_iff]
      refine ⟨rfl, fun c hc => ?_⟩
      exact beq_iff_eq.mp (List.all_eq_true.mp List.all_takeWhile c hc)
    rw [← hdots, List.takeWhile_append_dropWhile]
  · intro hhead
    have hnot := List.head?_dropWhile_not (· == '.') suffix
    rw [hhead] at hnot
    simp at hnot

/-- The key of a suffix that was read from a name is the suffix itself. -/
theorem key_of_suffix {name s : Text}
    (h : primarySuffix? name = some s ∨ secondarySuffix? name = some s) : key s = s := by
  obtain ⟨hdot, hlower⟩ := lowered_of_suffix h
  have hkeep : s.dropWhile (· == '.') = s := by
    cases s with
    | nil => rfl
    | cons c s =>
      refine List.dropWhile_cons_of_neg ?_
      rw [beq_iff_eq]
      rintro rfl
      exact hdot List.mem_cons_self
  rw [key, hkeep, hlower]

/-! ### One change -/

/-- A change of a table. -/
inductive Change where
  | add (suffix : Text) (h : Handler)
  | remove (suffix : Text)

namespace Change

/-- The suffix that a change is about. -/
def suffix : Change → Text
  | add s _ => s
  | remove s => s

/-- The handler that a change leaves for its suffix. -/
def handler? : Change → Option Handler
  | add _ h => some h
  | remove _ => none

/-- The table after a change. -/
def apply (t : HandlerTable) : Change → HandlerTable
  | add s h => t.add s h
  | remove s => (t.takeOut s).2

/-- A change is about one key and leaves the others as they are. -/
theorem getElem?_apply (t : HandlerTable) (c : Change) (k : Text) :
    (c.apply t)[k]? = if key c.suffix = k then c.handler? else t[k]? := by
  cases c with
  | add s h =>
    rw [apply, HandlerTable.add, Std.ExtTreeMap.getElem?_insert]
    simp only [Std.compare_eq_iff_eq]
    rfl
  | remove s =>
    rw [apply, takeOut, HandlerTable.remove, Std.ExtTreeMap.getElem?_erase]
    simp only [Std.compare_eq_iff_eq]
    rfl

end Change

/-- The keys of a table are those that have a handler, and they are counted. -/
theorem count_eq_length_keys (t : HandlerTable) :
    t.keys.Nodup ∧ (∀ k, k ∈ t.keys ↔ t[k]?.isSome = true) ∧ t.count = t.keys.length := by
  refine ⟨Std.ExtTreeMap.nodup_keys, fun k => ?_, Std.ExtTreeMap.length_keys.symm⟩
  rw [Std.ExtTreeMap.mem_keys, Std.ExtTreeMap.mem_iff_isSome_getElem?]

end HandlerTable

open HandlerTable (Change key)

/-! ### Histories -/

/-- Where handlers are kept: in the table of a mount, or in the one for all mounts. -/
inductive Scope where
  | mount
  | global
  deriving DecidableEq, Repr

/-- What was done to the two tables, in order. -/
abbrev HandlerHistory := List (Scope × Change)

namespace HandlerHistory

/-- The last change in a scope that was about a key. -/
def lastChange? (history : HandlerHistory) (scope : Scope) (k : Text) : Option Change :=
  (history.reverse.find? fun e => e.1 = scope ∧ key e.2.suffix = k).map (·.2)

/-- The handler that is **live** in a scope for a key: the one that the last change about the key
has added, and none when that change has removed the handler or when there was no such change. -/
def live? (history : HandlerHistory) (scope : Scope) (k : Text) : Option Handler :=
  (history.lastChange? scope k).bind Change.handler?

theorem live?_concat (history : HandlerHistory) (scope scope' : Scope) (c : Change) (k : Text) :
    live? (history ++ [(scope', c)]) scope k =
      if scope' = scope ∧ key c.suffix = k then c.handler? else live? history scope k := by
  rw [live?, lastChange?, List.reverse_concat, List.find?_cons]
  split_ifs with h
  · simp [h]
  · simp [h, live?, lastChange?]

end HandlerHistory

/-! ### The two tables -/

/-- The table of a mount and the one for all mounts. -/
structure HandlerTables where
  mount : HandlerTable := ∅
  global : HandlerTable := ∅

namespace HandlerTables

/-- The table of a scope. -/
def table (ts : HandlerTables) : Scope → HandlerTable
  | .mount => ts.mount
  | .global => ts.global

/-- The tables after a change of one of them. -/
def change (ts : HandlerTables) (scope : Scope) (c : Change) : HandlerTables :=
  match scope with
  | .mount => { ts with mount := c.apply ts.mount }
  | .global => { ts with global := c.apply ts.global }

/-- The tables after a history, which starts with empty ones. -/
def after (history : HandlerHistory) : HandlerTables :=
  history.foldl (fun ts e => ts.change e.1 e.2) {}

theorem after_concat (history : HandlerHistory) (scope : Scope) (c : Change) :
    after (history ++ [(scope, c)]) = (after history).change scope c := by
  rw [after, List.foldl_append]
  rfl

/-- A change of one table leaves the other as it is. -/
theorem table_change (ts : HandlerTables) (scope scope' : Scope) (c : Change) :
    (ts.change scope' c).table scope =
      if scope' = scope then c.apply (ts.table scope) else ts.table scope := by
  cases scope <;> cases scope' <;> rfl

/-- **Each table holds what is live.** -/
theorem getElem?_after (history : HandlerHistory) (scope : Scope) (k : Text) :
    ((after history).table scope)[k]? = history.live? scope k := by
  induction history using List.reverseRecOn with
  | nil => cases scope <;> exact Std.ExtTreeMap.getElem?_empty
  | append_singleton history e ih =>
    obtain ⟨scope', c⟩ := e
    rw [after_concat, table_change, HandlerHistory.live?_concat]
    by_cases hscope : scope' = scope
    · rw [if_pos hscope, Change.getElem?_apply, ih]
      simp [hscope]
    · rw [if_neg hscope, ih]
      simp [hscope]

/-- What a table holds comes from what was done to it alone. -/
theorem table_after_filter (history : HandlerHistory) (scope : Scope) :
    (after (history.filter (·.1 = scope))).table scope = (after history).table scope := by
  induction history using List.reverseRecOn with
  | nil => rfl
  | append_singleton history e ih =>
    obtain ⟨scope', c⟩ := e
    rw [List.filter_append, after_concat, table_change]
    by_cases hscope : scope' = scope
    · rw [List.filter_cons_of_pos (by simpa using hscope), List.filter_nil, after_concat,
        table_change, if_pos hscope, if_pos hscope, ih]
    · rw [List.filter_cons_of_neg (by simpa using hscope), List.filter_nil, List.append_nil,
        if_neg hscope, ih]

theorem find?_after (history : HandlerHistory) (scope : Scope) (suffix : Text) :
    ((after history).table scope).find? suffix = history.live? scope (key suffix) :=
  getElem?_after history scope (key suffix)

/-- A suffix of a name is looked up as it is. -/
theorem bind_find?_after (history : HandlerHistory) (scope : Scope) {name : Text}
    {suffix? : Option Text}
    (h : suffix? = primarySuffix? name ∨ suffix? = secondarySuffix? name) :
    (suffix?.bind fun s => ((after history).table scope).find? s) =
      suffix?.bind (history.live? scope) := by
  cases suffix? with
  | none => rfl
  | some s =>
    have hkey : key s = s := HandlerTable.key_of_suffix (h.imp Eq.symm Eq.symm)
    rw [Option.bind_some, Option.bind_some, find?_after, hkey]

/-- In one table the handler for a name is the live one for its first suffix that has one. -/
theorem findSome?_find?_after (history : HandlerHistory) (scope : Scope) (name : Text) :
    ((suffixes name).findSome? fun s => ((after history).table scope).find? s) =
      [(scope, primarySuffix? name), (scope, secondarySuffix? name)].findSome?
        fun (scope, suffix?) => suffix?.bind (history.live? scope) := by
  rw [findSome?_suffixes, bind_find?_after history scope (.inl rfl),
    bind_find?_after history scope (.inr rfl)]
  simp only [List.findSome?_cons, List.findSome?_nil]
  cases (primarySuffix? name).bind (history.live? scope) with
  | some h => rfl
  | none => cases (secondarySuffix? name).bind (history.live? scope) <;> rfl

/-- The handler for a name is the first live one for its suffixes, those of the mount before those
for all mounts. -/
theorem choose_after (history : HandlerHistory) (name : Text) :
    HandlerTable.choose (after history).mount (after history).global name =
      [(Scope.mount, primarySuffix? name), (Scope.mount, secondarySuffix? name),
        (Scope.global, primarySuffix? name), (Scope.global, secondarySuffix? name)].findSome?
          fun (scope, suffix?) => suffix?.bind (history.live? scope) := by
  have hsplit : [(Scope.mount, primarySuffix? name), (Scope.mount, secondarySuffix? name),
      (Scope.global, primarySuffix? name), (Scope.global, secondarySuffix? name)] =
        [(Scope.mount, primarySuffix? name), (Scope.mount, secondarySuffix? name)] ++
          [(Scope.global, primarySuffix? name), (Scope.global, secondarySuffix? name)] := rfl
  rw [hsplit, List.findSome?_append, ← findSome?_find?_after, ← findSome?_find?_after,
    HandlerTable.choose, List.findSome?_cons, List.findSome?_cons, List.findSome?_nil]
  simp only [table]
  cases (suffixes name).findSome? fun s => (after history).mount.find? s with
  | some h => rfl
  | none => cases (suffixes name).findSome? fun s => (after history).global.find? s <;> rfl

/-- **Tables after a history.** Handlers are kept by what follows the dots in front of a suffix, in
lower case. Whatever was done to the two tables before, looking up a suffix and taking it out of a
table give the handler that is live for its key; the count of a table is that of the keys for which
a handler is live; and nothing depends on what was done to the other table. The handler for a name
is the live one for the first suffix that has one, where the primary suffix comes before the
secondary one and the mount's table before the one for all mounts. -/
theorem after_history (history : HandlerHistory) :
    let tables := after history
    (∀ suffix, ∃ dots w, suffix = List.replicate dots '.' ++ w ∧ w.head? ≠ some '.' ∧
      key suffix = lower w) ∧
    (∀ scope suffix,
      (tables.table scope).find? suffix = history.live? scope (key suffix) ∧
      (tables.table scope).takeOut suffix =
        (history.live? scope (key suffix),
          (after (history ++ [(scope, .remove suffix)])).table scope)) ∧
    (∀ scope, ∃ keys : List Text, keys.Nodup ∧
      (∀ k, k ∈ keys ↔ (history.live? scope k).isSome = true) ∧
      (tables.table scope).count = keys.length) ∧
    (∀ scope, tables.table scope = (after (history.filter (·.1 = scope))).table scope) ∧
    ∀ name, HandlerTable.choose tables.mount tables.global name =
      [(Scope.mount, primarySuffix? name), (Scope.mount, secondarySuffix? name),
        (Scope.global, primarySuffix? name), (Scope.global, secondarySuffix? name)].findSome?
          fun (scope, suffix?) => suffix?.bind (history.live? scope) := by
  intro tables
  refine ⟨HandlerTable.exists_key_eq, fun scope suffix => ⟨find?_after history scope suffix, ?_⟩,
    fun scope => ?_, fun scope => (table_after_filter history scope).symm, choose_after history⟩
  · rw [after_concat, table_change, if_pos rfl, HandlerTable.takeOut, find?_after]
    rfl
  · obtain ⟨hnodup, hkeys, hcount⟩ := HandlerTable.count_eq_length_keys (tables.table scope)
    refine ⟨(tables.table scope).keys, hnodup, fun k => ?_, hcount⟩
    rw [hkeys, getElem?_after]

end HandlerTables

end Webroot
