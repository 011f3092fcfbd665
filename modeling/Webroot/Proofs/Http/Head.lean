import Webroot.Http.Response
import Webroot.Proofs.Http.Fields
import Webroot.Proofs.Http.TameText

/-!
# Heads of messages, read

Someone who sees the head of a message as a text alone cuts it into lines, and a line at its first
colon. When the stored fields are plain, that is, no name holds a colon and nothing holds a
carriage return, what is read is what was stored: the status line, the fields in order with the
length that is added to them, the date, the server, and an empty line (`lines_head`).

Main statement: `fieldNames_head`.
-/

namespace Webroot.Http

open Text

/-! ### Lines -/

/-- A text has a line at least. -/
theorem lines_ne_nil (t : Text) : lines t ≠ [] := by
  induction t using lines.induct with
  | case1 => exact List.cons_ne_nil _ _
  | case2 r => exact List.cons_ne_nil _ _
  | case3 c r hend ih =>
    rw [lines.eq_3 c r hend]
    exact mt List.modifyHead_eq_nil_iff.mp ih

/-- A text without carriage returns goes before the first line. -/
theorem lines_append_of_not_mem {t : Text} (h : '\r' ∉ t) (rest : Text) :
    lines (t ++ rest) = (lines rest).modifyHead (t ++ ·) := by
  induction t with
  | nil => exact (congrFun List.modifyHead_id (lines rest)).symm
  | cons c t ih =>
    obtain ⟨hc, ht⟩ : '\r' ≠ c ∧ '\r' ∉ t := by simpa using h
    rw [List.cons_append, lines.eq_def]
    split
    · rename_i hnil
      cases hnil
    · rename_i c' r hcons
      obtain ⟨rfl, rfl⟩ := List.cons.inj hcons
      split
      · exact absurd rfl hc
      · rw [ih ht, List.modifyHead_modifyHead]
        rfl

/-- A text without carriage returns before a line end is a line. -/
theorem lines_append {t : Text} (h : '\r' ∉ t) (rest : Text) :
    lines (t ++ '\r' :: '\n' :: rest) = t :: lines rest := by
  have hnext : lines ('\r' :: '\n' :: rest) = [] :: lines rest := rfl
  rw [lines_append_of_not_mem h, hnext, List.modifyHead_cons, List.append_nil]

/-- The lines of fields are the fields. -/
theorem lines_fieldLines {fields : List (Text × Text)}
    (h : ∀ f ∈ fields, Multipart.PlainField f.1 f.2) (rest : Text) :
    lines (Multipart.fieldLines fields ++ rest) =
      fields.map (fun f => Multipart.fieldText f.1 f.2) ++ lines rest := by
  induction fields with
  | nil => rfl
  | cons f fields ih =>
    obtain ⟨hf, hfields⟩ := List.forall_mem_cons.mp h
    have hcons : Multipart.fieldLines (f :: fields) ++ rest =
        Multipart.fieldText f.1 f.2 ++ '\r' :: '\n' :: (Multipart.fieldLines fields ++ rest) := by
      simp [Multipart.fieldLines, Multipart.fieldText, Response.fieldLine]
    rw [hcons, lines_append hf.return_not_mem, ih hfields]
    rfl

/-! ### The parts of a head -/

/-- The line with the status. -/
def Response.statusLine (r : Response) : Text := "HTTP/1.1 " ++ decimal r.status ++ " " ++ r.reason

/-- The stored fields, with the length that is added to them. -/
def Response.sentFields (r : Response) : List (Text × Text) :=
  r.fields ++
    if (r.field? "Content-Length").isNone && !isBodiless r.status then
      [(("Content-Length" : Text), decimal r.body.length)]
    else []

/-- The fields that every head has at its end. -/
def closingFields (now : Instant) : List (Text × Text) :=
  [("Date", HttpDate.format now.seconds), ("Server", Response.serverName)]

theorem Response.fieldLines_eq (r : Response) :
    r.fieldLines = Multipart.fieldLines r.sentFields := by
  rw [fieldLines, sentFields, Multipart.fieldLines, List.flatMap_append]
  split
  · simp
  · rfl

/-- A head is its status line and the lines of its fields. -/
theorem Response.head_eq (r : Response) (now : Instant) :
    r.head now = r.statusLine ++ '\r' :: '\n' ::
      (Multipart.fieldLines (r.sentFields ++ closingFields now) ++ ['\r', '\n']) := by
  unfold head statusLine
  rw [fieldLines_eq]
  simp [Multipart.fieldLines, closingFields]

/-- A phrase holds neither a colon nor a carriage return. -/
theorem plain_reasonPhrase (code : Nat) : ':' ∉ reasonPhrase code ∧ '\r' ∉ reasonPhrase code := by
  have hall : ∀ p ∈ statusPhrases, ':' ∉ p.2 ∧ '\r' ∉ p.2 := by decide
  rw [reasonPhrase]
  cases hphrase : statusPhrases.lookup code with
  | none => decide
  | some phrase =>
    obtain ⟨before, after, heq, -⟩ := List.lookup_eq_some_iff.mp hphrase
    exact hall (code, phrase) (by rw [heq]; simp)

theorem Response.plain_statusLine (r : Response) :
    ':' ∉ r.statusLine ∧ '\r' ∉ r.statusLine := by
  obtain ⟨hcolon, hreturn⟩ := plain_reasonPhrase r.status
  have hcolon' := not_mem_decimal (c := ':') rfl r.status
  have hreturn' := not_mem_decimal (c := '\r') rfl r.status
  unfold statusLine
  simp [reason, hcolon, hreturn, hcolon', hreturn']

/-- A date holds no carriage return. -/
theorem return_not_mem_format (s : Int) : '\r' ∉ HttpDate.format s :=
  (HttpDate.tame_format s).not_mem rfl

theorem plain_closingFields (now : Instant) :
    ∀ f ∈ closingFields now, Multipart.PlainField f.1 f.2 := by
  have hdate : Multipart.PlainField "Date" (HttpDate.format now.seconds) :=
    ⟨by decide, by decide, return_not_mem_format _⟩
  have hserver : Multipart.PlainField "Server" Response.serverName :=
    ⟨by decide, by decide, by decide⟩
  simpa [closingFields] using ⟨hdate, hserver⟩

theorem Response.plain_sentFields {r : Response}
    (h : ∀ f ∈ r.fields, Multipart.PlainField f.1 f.2) :
    ∀ f ∈ r.sentFields, Multipart.PlainField f.1 f.2 := by
  intro f hf
  rcases List.mem_append.mp hf with hf | hf
  · exact h f hf
  · split at hf
    · rw [List.mem_singleton.mp hf]
      exact plainField_contentLength _
    · cases hf

/-! ### Heads -/

/-- The lines of a head. -/
theorem Response.lines_head {r : Response} (h : ∀ f ∈ r.fields, Multipart.PlainField f.1 f.2)
    (now : Instant) :
    lines (r.head now) = r.statusLine ::
      ((r.sentFields ++ closingFields now).map (fun f => Multipart.fieldText f.1 f.2) ++
        [[], []]) := by
  have hplain : ∀ f ∈ r.sentFields ++ closingFields now, Multipart.PlainField f.1 f.2 := by
    intro f hf
    rcases List.mem_append.mp hf with hf | hf
    · exact plain_sentFields h f hf
    · exact plain_closingFields now f hf
  rw [head_eq, lines_append r.plain_statusLine.2, lines_fieldLines hplain]
  rfl

/-- The names of the fields in a head: what stands before the first colon of a line. -/
def fieldNames (head : Text) : List Text :=
  (lines head).filterMap fun line => (cut ':' line).map (·.1)

/-- What stands before the first colon of a field line is the name. -/
theorem names_fieldText {fields : List (Text × Text)}
    (h : ∀ f ∈ fields, Multipart.PlainField f.1 f.2) :
    (fields.map fun f => Multipart.fieldText f.1 f.2).filterMap
      (fun line => (cut ':' line).map (·.1)) = fields.map (·.1) := by
  induction fields with
  | nil => rfl
  | cons f fields ih =>
    obtain ⟨hf, hrest⟩ := List.forall_mem_cons.mp h
    rw [List.map_cons, List.filterMap_cons, Multipart.cut_fieldText hf.colon, ih hrest]
    rfl

/-- **Heads.** The names of the fields in a head are those of the stored fields and of the length
that is added to them, and then the date and the server. -/
theorem Response.fieldNames_head {r : Response}
    (h : ∀ f ∈ r.fields, Multipart.PlainField f.1 f.2) (now : Instant) :
    fieldNames (r.head now) = r.sentFields.map (·.1) ++ (["Date", "Server"] : List Text) := by
  -- neither the status line nor the empty lines at the end have a colon
  have hstatus : cut ':' r.statusLine = none := cut_eq_none r.plain_statusLine.1
  have hempty : ([[], []] : List Text).filterMap (fun line => (cut ':' line).map (·.1)) = [] := rfl
  rw [fieldNames, lines_head h, List.filterMap_cons, hstatus, Option.map_none,
    List.filterMap_append, hempty, List.append_nil, List.map_append, List.filterMap_append,
    names_fieldText (plain_sentFields h), names_fieldText (plain_closingFields now)]
  rfl

end Webroot.Http
