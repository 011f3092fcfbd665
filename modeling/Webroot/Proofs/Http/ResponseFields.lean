import Mathlib.Data.List.Induction
import Webroot.Proofs.Http.Fields

/-!
# Fields of a response under construction

A response is built by calls, in any order and number, and the list of its fields is searched from
the start. It has to behave like a table in which the case of letters does not count. The list is
compared with the **log** of the calls: the writes and removals that they make, one name at a time.
A value is **live** for a name when the last event about the name has written it.

One event changes one name (`FieldEvent.valueOf_apply`, `FieldEvent.filter_apply`), and by induction
the list holds what is live: each name once, in the spelling of the write that **introduced** it,
which is the write that found no live value and was not undone by a removal, and in the order of
these writes (`FieldLog.stored_eq`).

Main statement: `Response.fields_after`.
-/

namespace Webroot.Http

open Text

/-- The value of the first field with a name. -/
def valueOf (fields : List (Text × Text)) (name : Text) : Option Text :=
  (fields.find? fun f => SameLetters f.1 name).map (·.2)

theorem valueOf_of_sameLetters {name name' : Text} (h : SameLetters name name')
    (fields : List (Text × Text)) : valueOf fields name = valueOf fields name' := by
  have hsame : ∀ k, SameLetters k name ↔ SameLetters k name' := fun k => by
    rw [SameLetters, h, ← SameLetters]
  simp only [valueOf, hsame]

theorem valueOf_eq_none_iff {fields : List (Text × Text)} {name : Text} :
    valueOf fields name = none ↔ ∀ f ∈ fields, ¬SameLetters f.1 name := by
  simp [valueOf]

namespace Response

/-- Where a name is stored, a write changes its value alone. -/
theorem putField_eq_map {fields : List (Text × Text)}
    (h : fields.Pairwise fun f g => ¬SameLetters f.1 g.1) {name : Text}
    (hmem : ∃ f ∈ fields, SameLetters f.1 name) (value : Text) :
    putField name value fields =
      fields.map fun f => if SameLetters f.1 name then (f.1, value) else f := by
  induction fields with
  | nil => simp at hmem
  | cons f fields ih =>
    obtain ⟨hf, hrest⟩ := List.pairwise_cons.mp h
    rw [putField, List.map_cons]
    split_ifs with hsame
    · -- no other field has the name
      have hothers : fields.map (fun g => if SameLetters g.1 name then (g.1, value) else g) =
          fields.map id :=
        List.map_congr_left fun g hg => if_neg fun hname => hf g hg (hsame.trans hname.symm)
      rw [hothers, List.map_id]
    · have hmem' : ∃ g ∈ fields, SameLetters g.1 name := by
        obtain ⟨g, hg, hname⟩ := hmem
        rcases List.mem_cons.mp hg with rfl | hg
        · exact absurd hname hsame
        · exact ⟨g, hg, hname⟩
      rw [ih hrest hmem']

/-- Where a name is not stored, a write puts it behind the others. -/
theorem putField_eq_append {fields : List (Text × Text)} {name : Text}
    (h : ∀ f ∈ fields, ¬SameLetters f.1 name) (value : Text) :
    putField name value fields = fields ++ [(name, value)] := by
  induction fields with
  | nil => rfl
  | cons f fields ih =>
    obtain ⟨hf, hrest⟩ := List.forall_mem_cons.mp h
    rw [putField, if_neg hf, ih hrest, List.cons_append]

/-- The first field with a name is the one that a write changes. -/
theorem putField_append_cons {before : List (Text × Text)} {k name : Text}
    (h : ∀ f ∈ before, ¬SameLetters f.1 name) (hk : SameLetters k name) (v value : Text)
    (behind : List (Text × Text)) :
    putField name value (before ++ (k, v) :: behind) =
      before ++ (k, value) :: behind := by
  induction before with
  | nil => exact if_pos hk
  | cons f before ih =>
    obtain ⟨hf, hrest⟩ := List.forall_mem_cons.mp h
    rw [List.cons_append, putField, if_neg hf, ih hrest, List.cons_append]

end Response

/-! ### Events -/

/-- An **event** in the life of a field: a value is written to it, or it is removed. -/
inductive FieldEvent where
  | write (name value : Text)
  | remove (name : Text)

namespace FieldEvent

/-- The name that an event is about. -/
def name : FieldEvent → Text
  | write n _ => n
  | remove n => n

/-- The value that an event leaves for its name. -/
def value? : FieldEvent → Option Text
  | write _ v => some v
  | remove _ => none

/-- Whether an event removes the field with a name. -/
def removes : FieldEvent → Text → Bool
  | write _ _, _ => false
  | remove m, n => SameLetters m n

/-- The fields after an event. -/
def apply (fields : List (Text × Text)) : FieldEvent → List (Text × Text)
  | write n v => Response.putField n v fields
  | remove n => fields.filter fun (k, _) => ¬SameLetters k n

/-- An event changes the value of one name. -/
theorem valueOf_apply (fields : List (Text × Text)) (e : FieldEvent) (name : Text) :
    valueOf (e.apply fields) name =
      if SameLetters e.name name then e.value? else valueOf fields name := by
  let r : Response := { fields }
  split
  · next h =>
    rw [← valueOf_of_sameLetters h]
    cases e with
    | write n v => exact r.field?_setField n v
    | remove n => exact r.field?_removeField n
  · next h =>
    cases e with
    | write n v => exact Response.field?_setField_of_ne h r v
    | remove n => exact Response.field?_removeField_of_ne h r

/-- An event leaves the fields with other names as they are, and in their order. -/
theorem filter_apply {e : FieldEvent} {p : Text × Text → Bool}
    (h : ∀ f, p f = true → ¬SameLetters f.1 e.name) (fields : List (Text × Text)) :
    (e.apply fields).filter p = fields.filter p := by
  have hnot : ∀ f, SameLetters f.1 e.name → p f = false := fun f hf =>
    Bool.eq_false_iff.mpr fun hp => h f hp hf
  cases e with
  | write n v =>
    induction fields with
    | nil => simp [apply, Response.putField, hnot (n, v) rfl]
    | cons f fields ih =>
      rw [apply, Response.putField]
      split_ifs with hsame
      · simp [hnot (f.1, v) hsame, hnot f hsame]
      · rw [List.filter_cons, List.filter_cons, ← apply, ih]
  | remove n =>
    rw [apply, List.filter_filter]
    refine List.filter_congr fun f _ => ?_
    cases hp : p f with
    | false => rfl
    | true =>
      have hne : ¬SameLetters f.1 n := h f hp
      simpa using hne

theorem pairwise_apply {fields : List (Text × Text)}
    (h : fields.Pairwise fun f g => ¬SameLetters f.1 g.1) (e : FieldEvent) :
    (e.apply fields).Pairwise fun f g => ¬SameLetters f.1 g.1 := by
  cases e with
  | write n v => exact Response.pairwise_putField h
  | remove n => exact h.filter _

end FieldEvent

/-! ### Logs -/

/-- The writes and removals that were made, in order. -/
abbrev FieldLog := List FieldEvent

namespace FieldLog

open FieldEvent

/-- The fields after all events of a log. -/
def stored (log : FieldLog) : List (Text × Text) := log.foldl (fun fields e => e.apply fields) []

/-- The value that is **live** for a name: the one that the last event about the name has written,
and none when that event is a removal or when there is no such event. -/
def live? (log : FieldLog) (name : Text) : Option Text :=
  (log.reverse.find? fun e => SameLetters e.name name).bind value?

/-- The names that are **introduced** by the events that follow a past and stay: those that are
written while no value is live for them, and not removed afterwards. Each is spelled as it was
written then. -/
def introducedFrom (past : FieldLog) : FieldLog → List Text
  | [] => []
  | remove n :: future => introducedFrom (past ++ [remove n]) future
  | write n v :: future =>
    if (live? past n).isNone && !future.any (·.removes n) then
      n :: introducedFrom (past ++ [write n v]) future
    else introducedFrom (past ++ [write n v]) future

/-- The names that a log introduces and does not remove afterwards, in order. -/
def introduced (log : FieldLog) : List Text := introducedFrom [] log

theorem stored_concat (log : FieldLog) (e : FieldEvent) :
    stored (log ++ [e]) = e.apply (stored log) := by
  rw [stored, List.foldl_append]
  rfl

theorem live?_concat (log : FieldLog) (e : FieldEvent) (name : Text) :
    live? (log ++ [e]) name = if SameLetters e.name name then e.value? else live? log name := by
  rw [live?, List.reverse_concat, List.find?_cons]
  split_ifs with h
  · simp [h]
  · simp [h, live?]

/-- Events leave the fields with other names as they are, and in their order. -/
theorem filter_foldl_apply {log : FieldLog} {p : Text × Text → Bool}
    (h : ∀ e ∈ log, ∀ f, p f = true → ¬SameLetters f.1 e.name) (fields : List (Text × Text)) :
    (log.foldl (fun fields e => e.apply fields) fields).filter p = fields.filter p := by
  induction log generalizing fields with
  | nil => rfl
  | cons e log ih =>
    obtain ⟨he, hlog⟩ := List.forall_mem_cons.mp h
    rw [List.foldl_cons, ih hlog, filter_apply he]

/-- **The list of fields answers like a table.** -/
theorem valueOf_stored (log : FieldLog) (name : Text) :
    valueOf (stored log) name = live? log name := by
  induction log using List.reverseRecOn with
  | nil => rfl
  | append_singleton log e ih => rw [stored_concat, valueOf_apply, live?_concat, ih]

theorem pairwise_stored (log : FieldLog) :
    (stored log).Pairwise fun f g => ¬SameLetters f.1 g.1 := by
  induction log using List.reverseRecOn with
  | nil => exact List.Pairwise.nil
  | append_singleton log e ih =>
    rw [stored_concat]
    exact pairwise_apply ih e

/-! ### Places and spellings -/

theorem introducedFrom_concat_write (past log : FieldLog) (n v : Text) :
    introducedFrom past (log ++ [write n v]) =
      introducedFrom past log ++ if (live? (past ++ log) n).isNone then [n] else [] := by
  induction log generalizing past with
  | nil => simp [introducedFrom]
  | cons e log ih =>
    have hpast : past ++ e :: log = past ++ [e] ++ log := by simp
    rw [List.cons_append, hpast]
    cases e with
    | remove m => exact ih _
    | write m w =>
      -- a write removes nothing, so what was introduced before it stays
      have hany : (log ++ [write n v]).any (·.removes m) = log.any (·.removes m) := by
        simp [removes]
      rw [introducedFrom, introducedFrom, hany, ih]
      split_ifs <;> rfl

theorem introducedFrom_concat_remove (past log : FieldLog) (n : Text) :
    introducedFrom past (log ++ [remove n]) =
      (introducedFrom past log).filter fun m => ¬SameLetters m n := by
  induction log generalizing past with
  | nil => rfl
  | cons e log ih =>
    rw [List.cons_append]
    cases e with
    | remove m => exact ih _
    | write m w =>
      have hany : (log ++ [remove n]).any (·.removes m) =
          (log.any (·.removes m) || decide (SameLetters m n)) := by
        rw [List.any_append, List.any_cons, List.any_nil, Bool.or_false]
        exact congrArg (log.any (·.removes m) || ·) (decide_eq_decide.mpr eq_comm)
      rw [introducedFrom, introducedFrom, hany, ih, Bool.not_or, ← Bool.and_assoc]
      cases (live? past m).isNone && !log.any (·.removes m) with
      | false => rfl
      | true => by_cases hsame : SameLetters m n <;> simp [hsame]

/-- The first write to a name puts a field behind the others. -/
theorem stored_write_of_none {log : FieldLog} {n : Text} (h : live? log n = none) (v : Text) :
    stored (log ++ [write n v]) = stored log ++ [(n, v)] := by
  rw [stored_concat, apply]
  exact Response.putField_eq_append (valueOf_eq_none_iff.mp ((valueOf_stored log n).trans h)) v

/-- A later write puts its value in the place of the earlier one. -/
theorem stored_write_of_some {log : FieldLog} {n w : Text} (h : live? log n = some w) (v : Text) :
    stored (log ++ [write n v]) =
      (stored log).map fun f => if SameLetters f.1 n then (f.1, v) else f := by
  have hmem : ∃ f ∈ stored log, SameLetters f.1 n := by
    by_contra hnone
    have hvalue := valueOf_eq_none_iff.mpr fun f hf hsame => hnone ⟨f, hf, hsame⟩
    rw [valueOf_stored, h] at hvalue
    cases hvalue
  rw [stored_concat, apply]
  exact Response.putField_eq_map (pairwise_stored log) hmem v

/-- The fields that a log leaves: the names that it introduces, each with the value that is live for
it. -/
def liveFields (log : FieldLog) : List (Text × Text) :=
  (introduced log).map fun name => (name, (live? log name).getD [])

theorem liveFields_remove (log : FieldLog) (n : Text) :
    liveFields (log ++ [remove n]) = (liveFields log).filter fun f => ¬SameLetters f.1 n := by
  have hintroduced : introduced (log ++ [remove n]) =
      (introduced log).filter fun m => ¬SameLetters m n :=
    introducedFrom_concat_remove [] log n
  rw [liveFields, liveFields, List.filter_map, hintroduced]
  refine List.map_congr_left fun m hm => ?_
  have hne : ¬SameLetters n m := fun hsame =>
    of_decide_eq_true (List.mem_filter.mp hm).2 hsame.symm
  rw [live?_concat, name, if_neg hne]

theorem introduced_write (log : FieldLog) (n v : Text) :
    introduced (log ++ [write n v]) =
      introduced log ++ if (live? log n).isNone then [n] else [] :=
  introducedFrom_concat_write [] log n v

theorem live?_write (log : FieldLog) (n v name : Text) :
    live? (log ++ [write n v]) name =
      if SameLetters n name then some v else live? log name :=
  live?_concat log (write n v) name

theorem liveFields_write_of_some {log : FieldLog} {n w : Text} (h : live? log n = some w)
    (v : Text) :
    liveFields (log ++ [write n v]) =
      (liveFields log).map fun f => if SameLetters f.1 n then (f.1, v) else f := by
  rw [liveFields, liveFields, introduced_write, h, Option.isNone_some,
    if_neg Bool.false_ne_true, List.append_nil, List.map_map]
  refine List.map_congr_left fun m _ => ?_
  have hsymm : SameLetters m n ↔ SameLetters n m := eq_comm
  rw [Function.comp_apply, live?_write]
  by_cases hsame : SameLetters m n
  · rw [if_pos hsame, if_pos (hsymm.mp hsame), Option.getD_some]
  · rw [if_neg hsame, if_neg (mt hsymm.mpr hsame)]

theorem liveFields_write_of_none {log : FieldLog} {n : Text} (h : live? log n = none)
    (hnew : ∀ f ∈ liveFields log, ¬SameLetters f.1 n) (v : Text) :
    liveFields (log ++ [write n v]) = liveFields log ++ [(n, v)] := by
  have hself : SameLetters n n := rfl
  rw [liveFields, liveFields, introduced_write, h, Option.isNone_none, if_pos rfl,
    List.map_append, List.map_singleton, live?_write, if_pos hself, Option.getD_some]
  refine congrArg (· ++ [(n, v)]) (List.map_congr_left fun m hm => ?_)
  have hne : ¬SameLetters n m := fun hsame => hnew _ (List.mem_map_of_mem hm) hsame.symm
  rw [live?_write, if_neg hne]

/-- **The list of fields** holds the names that were introduced, in order, each with the value that
is live for it. -/
theorem stored_eq (log : FieldLog) : stored log = liveFields log := by
  induction log using List.reverseRecOn with
  | nil => rfl
  | append_singleton log e ih =>
    cases e with
    | remove n => rw [stored_concat, apply, ih, liveFields_remove]
    | write n v =>
      cases hn : live? log n with
      | none =>
        have hnew := valueOf_eq_none_iff.mp ((valueOf_stored log n).trans hn)
        rw [ih] at hnew
        rw [stored_write_of_none hn, ih, liveFields_write_of_none hn hnew]
      | some w => rw [stored_write_of_some hn, ih, liveFields_write_of_some hn]

end FieldLog

/-! ### Calls -/

namespace Response

/-- A call in the making of a response. -/
inductive Call where
  | setField (name value : Text)
  | removeField (name : Text)
  | setFailure (f : Failure)
  | setStatus (code : Nat)
  | setBody (body : Body)

namespace Call

/-- The response after a call. -/
def apply (r : Response) : Call → Response
  | setField name value => r.setField name value
  | removeField name => r.removeField name
  | setFailure f => r.setFailure f
  | setStatus code => r.setStatus code
  | setBody body => r.setBody body

/-- The write that the report of a failure makes for the sake of its kind. -/
def failureEvents : Failure → FieldLog
  | .rangeNotSatisfiable size => [.write "Content-Range" ("bytes */" ++ decimal size)]
  | .methodNotAllowed _ => [.write "Allow" fileMethods]
  | _ => []

/-- The writes and removals that a call makes. The report of a failure removes what describes
content and writes the type of its page. -/
def events : Call → FieldLog
  | setField name value => [.write name value]
  | removeField name => [.remove name]
  | setFailure f =>
    [.remove "ETag", .remove "Last-Modified", .remove "Content-Length", .remove "Content-Range"] ++
      failureEvents f ++ [.write "Content-Type" pageType]
  | setStatus _ | setBody _ => []

/-- Whether no event of a call is about a name. -/
def spares (c : Call) (name : Text) : Bool := c.events.all fun e => ¬SameLetters e.name name

theorem fields_apply (r : Response) (c : Call) :
    (c.apply r).fields = c.events.foldl (fun fields e => e.apply fields) r.fields := by
  cases c with
  | setFailure f => cases f <;> rfl
  | setField name value => rfl
  | removeField name => rfl
  | setStatus code => rfl
  | setBody body => rfl

/-- Fields whose names a call spares stay as they are, and in their order. -/
theorem filter_apply (r : Response) (c : Call) :
    (c.apply r).fields.filter (fun f => c.spares f.1) = r.fields.filter fun f => c.spares f.1 := by
  rw [fields_apply]
  refine FieldLog.filter_foldl_apply (fun e he f hf hsame => ?_) r.fields
  exact of_decide_eq_true (List.all_eq_true.mp hf e he) hsame.symm

end Call

/-- The response after calls, which start with a new one. -/
def after (calls : List Call) : Response := calls.foldl Call.apply {}

/-- The writes and removals that calls make, in order. -/
def log (calls : List Call) : FieldLog := calls.flatMap Call.events

theorem after_concat (calls : List Call) (c : Call) :
    after (calls ++ [c]) = c.apply (after calls) := by
  rw [after, List.foldl_append]
  rfl

theorem fields_after_eq_stored (calls : List Call) :
    (after calls).fields = (log calls).stored := by
  induction calls using List.reverseRecOn with
  | nil => rfl
  | append_singleton calls c ih =>
    have hlog : log (calls ++ [c]) = log calls ++ c.events := by
      rw [log, List.flatMap_append, List.flatMap_singleton, log]
    rw [after_concat, Call.fields_apply, ih, hlog, FieldLog.stored, FieldLog.stored,
      List.foldl_append]

/-- **Fields after calls.** Whatever calls have made a response, no two of its fields have one name,
and looking a name up gives the value that is live for it, in any case of its letters. The fields
stand in the order and the spelling in which they were introduced. A write to a name that is there
changes the value alone, and a call leaves the fields that it is not about as they are. -/
theorem fields_after (calls : List Call) :
    let fields := (after calls).fields
    (fields.Pairwise fun f g => ¬SameLetters f.1 g.1) ∧
    (∀ name, (after calls).field? name = (log calls).live? name) ∧
    fields = (log calls).liveFields ∧
    (∀ before k v behind name value, fields = before ++ (k, v) :: behind → SameLetters k name →
      (after (calls ++ [.setField name value])).fields = before ++ (k, value) :: behind) ∧
    ∀ c : Call, (after (calls ++ [c])).fields.filter (fun f => c.spares f.1) =
      fields.filter fun f => c.spares f.1 := by
  intro fields
  have hfields : fields = (log calls).stored := fields_after_eq_stored calls
  have hdistinct : fields.Pairwise fun f g => ¬SameLetters f.1 g.1 := by
    rw [hfields]
    exact FieldLog.pairwise_stored _
  refine ⟨hdistinct, fun name => ?_, ?_, ?_, fun c => ?_⟩
  · rw [← FieldLog.valueOf_stored, ← hfields]
    rfl
  · rw [hfields]
    exact FieldLog.stored_eq _
  · intro before k v behind name value heq hsame
    have hbefore : ∀ f ∈ before, ¬SameLetters f.1 name := by
      intro f hf hname
      rw [heq] at hdistinct
      exact (List.pairwise_append.mp hdistinct).2.2 f hf (k, v) List.mem_cons_self
        (hname.trans hsame.symm)
    rw [after_concat, Call.apply, Response.setField]
    exact (congrArg (putField name value) heq).trans
      (putField_append_cons hbefore hsame v value behind)
  · rw [after_concat]
    exact Call.filter_apply _ c

/-- Calls of which the third removes a field, writes one anew and changes one that has another
spelling. -/
def reportCalls : List Call :=
  [.setField "ETag" "tag", .setField "content-type" "text/plain",
    .setFailure (.rangeNotSatisfiable 10)]

theorem fields_after_reportCalls :
    (after reportCalls).fields =
      [(("content-type" : Text), pageType), ("Content-Range", "bytes */10")] ∧
    SameLetters "Content-Range" "CONTENT-RANGE" ∧
    (after (reportCalls ++ [.setField "CONTENT-RANGE" "none"])).fields =
      [(("content-type" : Text), pageType), ("Content-Range", "none")] := by
  have hfields : (after reportCalls).fields =
      [(("content-type" : Text), pageType), ("Content-Range", "bytes */10")] := by decide
  have hsame : SameLetters "Content-Range" "CONTENT-RANGE" := by decide
  obtain ⟨-, -, -, hwrite, -⟩ := fields_after reportCalls
  exact ⟨hfields, hsame,
    hwrite [(("content-type" : Text), pageType)] "Content-Range" "bytes */10" [] "CONTENT-RANGE"
      "none" hfields hsame⟩

end Response

end Webroot.Http
