import Webroot.Proofs.Http.Head
import Webroot.Proofs.Http.RequestLine
import Webroot.Proofs.Text.Utf8

/-!
# Requests, written and read

A request can be made in two ways: from its method, its target and its header fields, one after
another, or from the octets that a client sends for these. Both give the same request. What is
written is taken apart where it was joined: the first empty line is the one at the end of the head
(`lines_headOf_message`), no line but the request line is cut at blanks, a field line is cut at the
colon behind its name, and the blank behind the colon is trimmed away with those of the value
(`readField_fieldText`).

Main statement: `read_encode_message`.
-/

namespace Webroot.Http

open Text

namespace Request

/-- The first line of a request. -/
def requestLine (m : Method) (target : Text) : Text := m.name ++ " " ++ target ++ " HTTP/1.1"

/-- A request as clients send it: the request line, a line for each header field, an empty line and
a body. -/
def message (m : Method) (target : Text) (fields : List (Text × Text)) (body : Text) : Text :=
  requestLine m target ++ "\r\n" ++ Multipart.fieldLines fields ++ "\r\n" ++ body

/-! ### The request line -/

/-- A request line has three words. -/
theorem words_requestLine (m : Method) {target : Text} (hne : target ≠ [])
    (hblank : ∀ c ∈ target, isBlank c = false) :
    words (requestLine m target) = [m.name, target, ("HTTP/1.1" : Text)] := by
  obtain ⟨hname, hany⟩ : m.name ≠ [] ∧ m.name.any isBlank = false := by
    cases m <;> decide
  have hletters := isBlank_of_mem_of_any hany
  have hline : requestLine m target = m.name ++ ' ' :: (target ++ ' ' :: ("HTTP/1.1" : Text)) := by
    simp [requestLine]
  have hversion : words "HTTP/1.1" = [("HTTP/1.1" : Text)] := by decide +kernel
  rw [hline, words_append_cons hletters hname rfl, words_append_cons hblank hne rfl, hversion]

theorem readLine_requestLine (m : Method) {target : Text} (hne : target ≠ [])
    (hblank : ∀ c ∈ target, isBlank c = false) :
    readLine (requestLine m target) = .ok (new m target) := by
  have hversion : versions.contains (upper "HTTP/1.1") = true := by decide +kernel
  simp only [readLine, words_requestLine m hne hblank, Method.ofName?_name, hversion, if_true]

theorem return_not_mem_requestLine (m : Method) {target : Text}
    (hblank : ∀ c ∈ target, isBlank c = false) : '\r' ∉ requestLine m target := by
  have hname : '\r' ∉ m.name := by
    cases m <;> decide
  have htarget : '\r' ∉ target := by
    intro hmem
    have hreturn := hblank '\r' hmem
    rw [show isBlank '\r' = true from rfl] at hreturn
    cases hreturn
  simp [requestLine, hname, htarget]

/-! ### Header lines -/

/-- A field line is read as the field. The blank behind the colon does not count. -/
theorem readField_fieldText {name value : Text} (h : Multipart.PlainField name value)
    (r : Request) :
    readField r (Multipart.fieldText name value) = .ok (r.withField name value) := by
  have htrim : trim (' ' :: value) = trim value := by
    have hblank : ∀ c ∈ ([' '] : Text), isBlank c = true := List.all_eq_true.mp (by decide)
    have hnone : ∀ c ∈ ([] : Text), isBlank c = true := fun c hc => absurd hc List.not_mem_nil
    simpa using trim_append_append_of_blank hblank hnone value
  rw [readField, Multipart.cut_fieldText h.colon]
  simp only [withField, RequestFields.add, htrim]

/-- Field lines are read as the fields, in order. -/
theorem foldlM_readField_fieldText {fields : List (Text × Text)}
    (h : ∀ f ∈ fields, Multipart.PlainField f.1 f.2) (r : Request) :
    (fields.map fun f => Multipart.fieldText f.1 f.2).foldlM readField r =
      .ok (r.withFields fields) := by
  induction fields generalizing r with
  | nil => rfl
  | cons f fields ih =>
    obtain ⟨hf, hfields⟩ := List.forall_mem_cons.mp h
    rw [List.map_cons, List.foldlM_cons, readField_fieldText hf]
    exact ih hfields (r.withField f.1 f.2)

/-- The number of a request has nothing to do with its fields. -/
theorem withFields_id (r : Request) (id : Nat) (fields : List (Text × Text)) :
    ({ r with id } : Request).withFields fields = { r.withFields fields with id } := by
  induction fields generalizing r with
  | nil => rfl
  | cons f fields ih => exact ih (r.withField f.1 f.2)

/-! ### Heads -/

/-- A line end before another line is not the end of a head. -/
theorem headOf_lineEnd {t : Text} (h : t.head? ≠ some '\r') :
    headOf ('\r' :: '\n' :: t) = '\r' :: '\n' :: headOf t := by
  have hafter : after? "\r\n\r\n" ('\r' :: '\n' :: t) = none := by
    cases t with
    | nil => rfl
    | cons c t =>
      have hc : '\r' ≠ c := fun heq => h (by rw [heq, List.head?_cons])
      exact if_neg hc
  have hfeed : after? "\r\n\r\n" ('\n' :: t) = none := rfl
  rw [headOf, headOf, cutAt, hafter, cutAt, hfeed]
  cases cutAt "\r\n\r\n" t <;> rfl

/-- The lines of a head are the line that it begins with and the lines of its fields. -/
theorem lines_headOf_append {line : Text} (hline : '\r' ∉ line) {fields : List (Text × Text)}
    (h : ∀ f ∈ fields, Multipart.PlainField f.1 f.2) (body : Text) :
    lines (headOf (line ++ '\r' :: '\n' ::
        (Multipart.fieldLines fields ++ '\r' :: '\n' :: body))) =
      line :: fields.map fun f => Multipart.fieldText f.1 f.2 := by
  induction fields generalizing line with
  | nil =>
    have hend : headOf ('\r' :: '\n' :: '\r' :: '\n' :: body) = [] := rfl
    have hbare := lines_append_of_not_mem hline []
    rw [List.append_nil] at hbare
    rw [headOf_append hline, Multipart.fieldLines, List.flatMap_nil, List.nil_append, hend,
      List.append_nil, hbare]
    exact congrArg (· :: []) (List.append_nil line)
  | cons f fields ih =>
    obtain ⟨hf, hfields⟩ := List.forall_mem_cons.mp h
    have hcons : Multipart.fieldLines (f :: fields) ++ '\r' :: '\n' :: body =
        Multipart.fieldText f.1 f.2 ++ '\r' :: '\n' ::
          (Multipart.fieldLines fields ++ '\r' :: '\n' :: body) := by
      simp [Multipart.fieldLines, Multipart.fieldText, Response.fieldLine]
    rw [headOf_append hline, hcons, headOf_lineEnd (hf.head?_ne _), lines_append hline,
      ih hf.return_not_mem hfields, List.map_cons]

/-- A message is its request line, the lines of its fields, and an empty line before its body. -/
theorem message_eq (m : Method) (target : Text) (fields : List (Text × Text)) (body : Text) :
    message m target fields body =
      requestLine m target ++ '\r' :: '\n' ::
        (Multipart.fieldLines fields ++ '\r' :: '\n' :: body) := by
  simp [message]

/-- The head of a written message, after NULs at the end of the body were taken away. -/
theorem lines_headOf_message (m : Method) {target : Text}
    (hblank : ∀ c ∈ target, isBlank c = false) {fields : List (Text × Text)}
    (h : ∀ f ∈ fields, Multipart.PlainField f.1 f.2) (body : Text) :
    lines (headOf (trimEnd (· == '\x00') (message m target fields body))) =
      requestLine m target :: fields.map fun f => Multipart.fieldText f.1 f.2 := by
  have hfeed : ∀ body, message m target fields body =
      (requestLine m target ++ "\r\n" ++ Multipart.fieldLines fields ++ ['\r']) ++
        '\n' :: body := by
    intro body
    simp [message]
  rw [hfeed, trimEnd_append_cons rfl, ← hfeed, message_eq]
  exact lines_headOf_append (return_not_mem_requestLine m hblank) h _

/-! ### Messages -/

/-- **Requests, written and read.** The octets of a request are read as the request that is made of
its method, its target and its header fields, one after another, with the number that the host gives
it. The target is a word, field names hold no colon, fields no carriage return, and the body is any
text. -/
theorem read_encode_message (m : Method) {target : Text} (hne : target ≠ [])
    (hblank : ∀ c ∈ target, isBlank c = false) {fields : List (Text × Text)}
    (h : ∀ f ∈ fields, Multipart.PlainField f.1 f.2) (body : Text) (id : Nat) :
    read (Utf8.encode (message m target fields body)) id =
      .ok (({ new m target with id } : Request).withFields fields) := by
  have hhead : readHead (headOf (trimEnd (· == '\x00') (message m target fields body))) =
      .ok ((new m target).withFields fields) := by
    rw [readHead, lines_headOf_message m hblank h]
    dsimp only
    rw [readLine_requestLine m hne hblank]
    exact foldlM_readField_fieldText h (new m target)
  rw [read_of_text (Utf8.decode?_encode _), hhead]
  exact congrArg Except.ok (withFields_id (new m target) id fields).symm

/-- Header fields in letters of both cases and with blanks around them, one of them twice. -/
def mixedFields : List (Text × Text) :=
  [("Accept-Language", "de;q=0.5"), ("accept-LANGUAGE ", "\t fr, , it;q=0.7 "), ("X", ""),
    ("Range", "bytes=0-9")]

theorem read_encode_message_mixedFields :
    ("/a%20b?N=D&x" : Text) ≠ [] ∧ (∀ c ∈ ("/a%20b?N=D&x" : Text), isBlank c = false) ∧
      (∀ f ∈ mixedFields, Multipart.PlainField f.1 f.2) ∧
      read (Utf8.encode (message .post "/a%20b?N=D&x" mixedFields "é\r\n\r\n\x00\x00")) 7 =
        .ok (({ new .post "/a%20b?N=D&x" with id := 7 } : Request).withFields mixedFields) := by
  have hne : ("/a%20b?N=D&x" : Text) ≠ [] := by decide
  have hblank : ∀ c ∈ ("/a%20b?N=D&x" : Text), isBlank c = false :=
    isBlank_of_mem_of_any (by decide)
  have hplain : ∀ f ∈ mixedFields, Multipart.PlainField f.1 f.2 := by
    have hall : ∀ f ∈ mixedFields, ':' ∉ f.1 ∧ '\r' ∉ f.1 ∧ '\r' ∉ f.2 := by decide +kernel
    intro f hf
    obtain ⟨hcolon, hname, hvalue⟩ := hall f hf
    exact ⟨hcolon, hname, hvalue⟩
  exact ⟨hne, hblank, hplain, read_encode_message .post hne hblank hplain _ 7⟩

end Request

end Webroot.Http
