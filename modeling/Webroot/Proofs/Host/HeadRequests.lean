import Webroot.Host
import Webroot.Proofs.Http.Head
import Webroot.Proofs.Http.RequestLine
import Webroot.Proofs.Mount.SingleRange
import Webroot.Proofs.Text.Utf8

/-!
# Answers to requests for a head alone

A client that asks by HEAD wants a head and no body after it. The host knows that only once it has
read the request: whether a body is sent is decided by the method of the request, and octets that
are refused have no method. So the host sends a head alone for just those requests by HEAD that it
accepts. Every refusal, whatever it is for, is a status page that follows its head.

What is read is traced from the octets on: white space and the word HEAD at their start are kept by
each step of the reader, so they begin the first word of the request line, and no other method
begins with that word.

Main statements: `Host.connection_head_iff` and `Host.not_forall_head_alone`.
-/

namespace Webroot

open Http Text

/-! ### The first word of a request -/

namespace Http.Request

/-- The first line of a message begins as the message does, up to a carriage return or to NULs at
the end. -/
theorem exists_lines_append {start : Text} (hreturn : '\r' ∉ start)
    (hlast : ∀ c ∈ start.getLast?, (c == '\x00') = false) (rest : Text) :
    ∃ line others, lines (headOf (trimEnd (· == '\x00') (start ++ rest))) =
      (start ++ line) :: others := by
  rw [trimEnd_append_of_last hlast, headOf_append hreturn, lines_append_of_not_mem hreturn]
  obtain ⟨line, others, hlines⟩ := List.exists_cons_of_ne_nil (lines_ne_nil _)
  rw [hlines]
  exact ⟨line, others, rfl⟩

/-- The method of a request that was read has a name that begins with the characters at the start of
the octets, after white space. -/
theorem exists_ofName?_of_read {blanks word : Text} {rest : Octets} {id : Nat} {r : Request}
    (h : read (Utf8.encode (blanks ++ word) ++ rest) id = .ok r)
    (hblanks : ∀ c ∈ blanks, isBlank c = true ∧ c ≠ '\r')
    (hword : ∀ c ∈ word, isBlank c = false ∧ c ≠ '\x00') (hne : word ≠ []) :
    ∃ more, Method.ofName? (word ++ more) = some r.method := by
  obtain ⟨t, r₁, hdecode, hhead, rfl⟩ := exists_readHead_of_read h
  rw [Utf8.decode?_encode_append] at hdecode
  obtain ⟨u, -, rfl⟩ := Option.map_eq_some_iff.mp hdecode
  have hreturn : '\r' ∉ blanks ++ word := by
    intro hmem
    rcases List.mem_append.mp hmem with hmem | hmem
    · exact (hblanks '\r' hmem).2 rfl
    · exact absurd (hword '\r' hmem).1 (by decide)
  have hlast : ∀ c ∈ (blanks ++ word).getLast?, (c == '\x00') = false := by
    intro c hc
    rw [List.getLast?_append, List.getLast?_eq_some_getLast hne] at hc
    obtain rfl := Option.some.inj hc
    exact beq_false_of_ne (hword _ (List.getLast_mem hne)).2
  obtain ⟨line, others, hlines⟩ := exists_lines_append hreturn hlast u
  obtain ⟨method, target, version, hwords, m, hm, hr⟩ := readHead_eq hhead
  obtain ⟨more, others, hfirst⟩ := exists_words_append (fun c hc => (hword c hc).1) hne line
  rw [hlines, List.headD_cons, List.append_assoc,
    words_append_of_blank fun c hc => (hblanks c hc).1, hfirst] at hwords
  obtain ⟨rfl, -⟩ := List.cons.inj hwords
  refine ⟨more, ?_⟩
  rw [hm, hr]
  rfl

end Http.Request

/-! ### The word HEAD -/

/-- The letters of HEAD in any case are neither white space nor NUL. -/
theorem not_isBlank_of_upper_eq {word : Text} (h : upper word = "HEAD") :
    ∀ c ∈ word, isBlank c = false ∧ c ≠ '\x00' := by
  have hupper : (upper word).all (fun c => !isBlank c && c != '\x00') = true := by
    rw [h]
    decide +kernel
  intro c hc
  obtain ⟨hblank, hnul⟩ : isBlank c.toUpper = false ∧ c.toUpper ≠ '\x00' := by
    simpa using List.all_eq_true.mp hupper c.toUpper (List.mem_map_of_mem hc)
  constructor
  · by_contra hnot
    have hc' : isBlank c = true := by simpa using hnot
    rw [toUpper_of_isBlank hc', hc'] at hblank
    cases hblank
  · rintro rfl
    exact hnul (by decide)

/-- No method but HEAD has a name that begins with HEAD. -/
theorem eq_head_of_ofName? {word more : Text} {method : Method} (hword : upper word = "HEAD")
    (h : Method.ofName? (word ++ more) = some method) : method = .head := by
  have hname : method.name = "HEAD" ++ upper more := by
    have hfound : method.name = upper (word ++ more) := by simpa using List.find?_some h
    rw [hfound, ← hword, upper, upper, upper, List.map_append]
  cases method with
  | head => rfl
  | get => exact absurd (List.cons.inj hname).1 (by decide)
  | post => exact absurd (List.cons.inj hname).1 (by decide)
  | options => exact absurd (List.cons.inj hname).1 (by decide)

/-! ### The host -/

theorem Page.status_ne_nil (code : Nat) (note : Option Text) : status code note ≠ [] :=
  List.append_ne_nil_of_right_ne_nil _ (by decide +kernel)

namespace Host

variable {m : Mount} {s : Setting} {chunk : Nat} {cuts : Cuts} {id : Nat} {input octets : Octets}

/-- Octets **ask by HEAD** when they begin with the word HEAD, in any case of its letters, perhaps
after white space. What follows is left open and need not be a text. -/
def AsksByHead (octets : Octets) : Prop :=
  ∃ blanks word rest, octets = Utf8.encode (blanks ++ word) ++ rest ∧
    (∀ c ∈ blanks, isBlank c = true ∧ c ≠ '\r') ∧ upper word = "HEAD"

/-- A request that asks by HEAD, if it is accepted, is one by HEAD. -/
theorem AsksByHead.method_eq (h : AsksByHead octets) {r : Request}
    (hread : Request.read octets id = .ok r) : r.method = .head := by
  obtain ⟨blanks, word, rest, rfl, hblanks, hword⟩ := h
  have hne : word ≠ [] := by
    rintro rfl
    cases hword
  obtain ⟨more, hname⟩ :=
    Request.exists_ofName?_of_read hread hblanks (not_isBlank_of_upper_eq hword) hne
  exact eq_head_of_ofName? hword hname

theorem AsksByHead.ne_nil (h : AsksByHead octets) : octets ≠ [] := by
  obtain ⟨blanks, word, rest, rfl, -, hword⟩ := h
  have hne : blanks ++ word ≠ [] := by
    intro hnil
    rw [(List.append_eq_nil_iff.mp hnil).2] at hword
    cases hword
  exact List.append_ne_nil_of_left_ne_nil (Utf8.encode_ne_nil hne) rest

/-- Content that is at hand is sent after the head. -/
theorem bytes_send_of_body {response : Response} {content : Octets}
    (h : response.body = .bytes content) (now : Instant) :
    (send response now false chunk cuts).bytes = Utf8.encode (response.head now) ++ content := by
  rw [send, h]
  rfl

section Connection

variable (hne : input.take maxRequest ≠ [])

include hne

/-- A client that sends something is sent the response to what the host reads of it. -/
theorem connection_eq :
    connection m s chunk cuts id input =
      (send (respondTo m s id (input.take maxRequest)).1 s.now
        (respondTo m s id (input.take maxRequest)).2 chunk cuts).bytes := by
  rw [connection]
  cases hbuffer : input.take maxRequest with
  | nil => exact absurd hbuffer hne
  | cons b buffer => rfl

/-- A client whose request is refused is sent the head of the report and its page. -/
theorem connection_of_error {f : Failure}
    (h : Request.read (input.take maxRequest) id = .error f) :
    connection m s chunk cuts id input =
      Utf8.encode ((Response.ofFailure f).head s.now) ++
        Utf8.encode (Page.status f.status f.publicNote?) := by
  have hrespond : respondTo m s id (input.take maxRequest) = (Response.ofFailure f, false) := by
    rw [respondTo, h]
  have hbody : (Response.ofFailure f).body =
      .bytes (Utf8.encode (Page.status f.status f.publicNote?)) := rfl
  rw [connection_eq hne, hrespond, bytes_send_of_body hbody]

/-- A client whose request is one by HEAD is sent the head of the response. -/
theorem connection_of_head {r : Request} (h : Request.read (input.take maxRequest) id = .ok r)
    (hmethod : r.method = .head) :
    connection m s chunk cuts id input = Utf8.encode ((respond m s r).head s.now) := by
  have hrespond : respondTo m s id (input.take maxRequest) = (respond m s r, true) := by
    rw [respondTo, h]
    simp only [hmethod, beq_self_eq_true]
  rw [connection_eq hne, hrespond]
  exact List.append_nil _

end Connection

/-- **Requests for a head alone.** For octets that ask by HEAD the host sends a head and no byte
after it if they are accepted as a request, and only then: when they are refused, for whatever
reason, a status page follows the head. -/
theorem connection_head_iff (hask : AsksByHead (input.take maxRequest)) :
    let buffer := input.take maxRequest
    let response := (respondTo m s id buffer).1
    let sent := connection m s chunk cuts id input
    (sent = Utf8.encode (response.head s.now) ↔ ∃ r, Request.read buffer id = .ok r) ∧
      ∀ f, Request.read buffer id = .error f →
        response = Response.ofFailure f ∧
          sent = Utf8.encode (response.head s.now) ++
            Utf8.encode (Page.status f.status f.publicNote?) := by
  intro buffer response sent
  have hresponse : response = (respondTo m s id buffer).1 := rfl
  cases hread : Request.read buffer id with
  | ok r =>
    have hsent : sent = Utf8.encode ((respond m s r).head s.now) :=
      connection_of_head hask.ne_nil hread (hask.method_eq hread)
    rw [respondTo, hread] at hresponse
    refine ⟨iff_of_true ?_ ⟨r, rfl⟩, fun f hf => by cases hf⟩
    rw [hsent, hresponse]
  | error f =>
    have hsent : sent = Utf8.encode ((Response.ofFailure f).head s.now) ++
        Utf8.encode (Page.status f.status f.publicNote?) :=
      connection_of_error hask.ne_nil hread
    rw [respondTo, hread] at hresponse
    have hpage : Utf8.encode (Page.status f.status f.publicNote?) ≠ [] :=
      Utf8.encode_ne_nil (Page.status_ne_nil _ _)
    constructor
    · refine iff_of_false ?_ (by rintro ⟨r, hr⟩; cases hr)
      rw [hsent, hresponse, List.append_right_eq_self]
      exact hpage
    · intro f' hf
      obtain rfl := Except.error.inj hf
      rw [hsent, hresponse]
      exact ⟨rfl, rfl⟩

/-- A request by HEAD in letters of both cases, with more octets after its end. -/
def headOctets : Octets := Utf8.encode "hEAd /hello.txt HTTP/1.1\r\n\r\n\x00"

theorem connection_head_iff_headOctets :
    AsksByHead (headOctets.take maxRequest) ∧
      connection { root := "/", options := {} } StaticFile.helloSetting 4 (fun _ => 1) 7
          headOctets =
        Utf8.encode ((respondTo { root := "/", options := {} } StaticFile.helloSetting 7
          (headOctets.take maxRequest)).1.head StaticFile.helloSetting.now) := by
  have hask : AsksByHead (headOctets.take maxRequest) :=
    ⟨[], "hEAd", Utf8.encode " /hello.txt HTTP/1.1\r\n\r\n\x00", by decide +kernel, nofun,
      by decide +kernel⟩
  refine ⟨hask, (connection_head_iff hask).1.mpr ?_⟩
  have haccepted : (Request.read (headOctets.take maxRequest) 7).toOption.isSome = true := by
    decide +kernel
  cases hread : Request.read (headOctets.take maxRequest) 7 with
  | ok r => exact ⟨r, rfl⟩
  | error f =>
    rw [hread] at haccepted
    cases haccepted

/-- A request by HEAD for a version that is not spoken. -/
def newerOctets : Octets := Utf8.encode "HEAD / HTTP/2.0\r\n\r\n"

/-- It is not so that a request by HEAD is always answered with a head alone: a page is sent after
the head when the version is not spoken. -/
theorem not_forall_head_alone :
    ¬∀ (m : Mount) (s : Setting) (chunk : Nat) (cuts : Cuts) (id : Nat) (input : Octets),
      AsksByHead (input.take maxRequest) →
        connection m s chunk cuts id input =
          Utf8.encode ((respondTo m s id (input.take maxRequest)).1.head s.now) := by
  intro h
  have hask : AsksByHead (newerOctets.take maxRequest) :=
    ⟨[], "HEAD", Utf8.encode " / HTTP/2.0\r\n\r\n", by decide +kernel, nofun, by decide +kernel⟩
  have hrefused : (Request.read (newerOctets.take maxRequest) 7).toOption.isSome = false := by
    decide +kernel
  have halone := h { root := "/", options := {} } StaticFile.helloSetting 4 (fun _ => 1) 7
    newerOctets hask
  cases hread : Request.read (newerOctets.take maxRequest) 7 with
  | ok r =>
    rw [hread] at hrefused
    cases hrefused
  | error f =>
    rw [connection_of_error hask.ne_nil hread, respondTo, hread, List.append_right_eq_self]
      at halone
    exact Utf8.encode_ne_nil (Page.status_ne_nil _ _) halone

end Host

end Webroot
