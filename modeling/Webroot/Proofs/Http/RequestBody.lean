import Webroot.Proofs.Http.RequestLine
import Webroot.Proofs.Text.Utf8

/-!
# Bodies of requests

A request is read from the part of a message before its first empty line, but the message is decoded
before it is cut. So of a body one thing counts: whether its octets are a text. The body of a form
or a plain text makes no difference to the request, whatever it holds, NULs at its end and empty
lines included. With a body of other octets, or one that breaks off inside a character, no request
is read.

* `headOf_message`: the head of a message is found without looking at its body.
* `read_message_eq_notText_iff`: the messages that are refused for being no text.

Main statements: `read_eq_read_iff`, the bodies that can take each other's place, and
`not_forall_read_eq`.
-/

namespace Webroot.Http

open Text

/-- A refusal with a note in other words is not the one for octets that are no text. -/
theorem Failure.ne_notText {note : Text} (h : note.head? ≠ some 'r') :
    Failure.badRequest note ≠ .notText := by
  intro heq
  rw [Failure.badRequest.inj heq] at h
  exact h rfl

namespace Request

/-- The octets at the end of a head: a line end and an empty line. -/
def headEnd : Octets := Utf8.encode "\r\n\r\n"

/-! ### Messages as texts -/

/-- The head of a message is the same whatever body follows it. -/
theorem headOf_append_end (t u : Text) :
    headOf (t ++ ("\r\n\r\n" ++ u)) = headOf (t ++ "\r\n\r\n") := by
  have hend : String.toList "\r\n\r\n" ≠ [] := by decide
  obtain ⟨a, b, hcut⟩ := exists_cutAt_append hend t
  have hbare := hcut []
  rw [List.append_nil] at hbare
  rw [headOf, headOf, hcut u, hbare]

/-- NULs at the end of a body do not reach into the head. -/
theorem trimEnd_append_end (t u : Text) :
    trimEnd (· == '\x00') (t ++ ("\r\n\r\n" ++ u)) =
      t ++ ("\r\n\r\n" ++ trimEnd (· == '\x00') u) := by
  have hlast : ∀ c ∈ (t ++ "\r\n\r\n" : Text).getLast?, (c == '\x00') = false := by
    have hfeed : (t ++ "\r\n\r\n" : Text).getLast? = some '\n' := by simp
    rw [hfeed]
    rintro c ⟨⟩
    decide
  have hkeep := trimEnd_append_of_last hlast u
  rwa [List.append_assoc, List.append_assoc] at hkeep

/-- The head of a message that is a text is found without looking at its body. -/
theorem headOf_message (t u : Text) :
    headOf (trimEnd (· == '\x00') (t ++ ("\r\n\r\n" ++ u))) = headOf (t ++ "\r\n\r\n") := by
  rw [trimEnd_append_end, headOf_append_end]

/-! ### Messages as octets -/

/-- A message is a text when its head and its body are. -/
theorem decode?_message (head body : Octets) :
    Utf8.decode? (head ++ headEnd ++ body) =
      (Utf8.decode? head).bind fun t =>
        (Utf8.decode? body).map fun u => t ++ (("\r\n\r\n" : Text) ++ u) := by
  have hend : Utf8.decode? (13 :: 10 :: 13 :: 10 :: body) =
      (Utf8.decode? body).map (("\r\n\r\n" : Text) ++ ·) :=
    Utf8.decode?_encode_append "\r\n\r\n" body
  have hcut := Utf8.decode?_append_ascii (b := 13) (by decide) head (10 :: 13 :: 10 :: body)
  have hmessage : head ++ headEnd ++ body = head ++ 13 :: 10 :: 13 :: 10 :: body :=
    List.append_assoc head headEnd body
  rw [hmessage, hcut, hend]
  simp only [Option.map_map]
  rfl

/-- A message that is a text is read from its head, whatever the text of its body is. -/
theorem read_message {head body : Octets} {t u : Text} (hhead : Utf8.decode? head = some t)
    (hbody : Utf8.decode? body = some u) (id : Nat) :
    read (head ++ headEnd ++ body) id =
      (readHead (headOf (t ++ "\r\n\r\n"))).map fun r => { r with id } := by
  have hmessage : Utf8.decode? (head ++ headEnd ++ body) =
      some (t ++ (("\r\n\r\n" : Text) ++ u)) := by
    rw [decode?_message, hhead, hbody]
    rfl
  rw [read_of_text hmessage, headOf_message]

/-! ### Refusals -/

/-- A request line is refused for its words, not for octets that are no text. -/
theorem ne_notText_of_readLine {line : Text} {f : Failure} (h : readLine line = .error f) :
    f ≠ .notText := by
  rw [readLine] at h
  split at h
  · split at h
    · obtain rfl := Except.error.inj h
      intro heq
      cases heq
    · split at h
      · cases h
      · obtain rfl := Except.error.inj h
        exact Failure.ne_notText (by simp)
  · obtain rfl := Except.error.inj h
    exact Failure.ne_notText (by simp)

theorem ne_notText_of_readField {r : Request} {line : Text} {f : Failure}
    (h : readField r line = .error f) : f ≠ .notText := by
  rw [readField] at h
  split at h
  · cases h
  · split at h
    · cases h
    · obtain rfl := Except.error.inj h
      exact Failure.ne_notText (by simp)

theorem ne_notText_of_foldlM_readField {r : Request} {lines : List Text} {f : Failure}
    (h : lines.foldlM readField r = .error f) : f ≠ .notText := by
  induction lines generalizing r with
  | nil => cases h
  | cons line lines ih =>
    rw [List.foldlM_cons] at h
    cases hline : readField r line with
    | error f' =>
      rw [hline] at h
      obtain rfl := Except.error.inj h
      exact ne_notText_of_readField hline
    | ok r' =>
      rw [hline] at h
      exact ih h

theorem ne_notText_of_readHead {head : Text} {f : Failure} (h : readHead head = .error f) :
    f ≠ .notText := by
  rw [readHead] at h
  split at h
  · obtain rfl := Except.error.inj h
    exact Failure.ne_notText (by simp)
  · rename_i line fields hlines
    cases hline : readLine line with
    | error f' =>
      rw [hline] at h
      obtain rfl := Except.error.inj h
      exact ne_notText_of_readLine hline
    | ok r =>
      rw [hline] at h
      exact ne_notText_of_foldlM_readField h

/-- Only octets that are no text are refused for that. -/
theorem read_eq_notText_iff {octets : Octets} {id : Nat} :
    read octets id = .error .notText ↔ Utf8.decode? octets = none := by
  refine ⟨fun h => ?_, fun h => read_of_not_text h id⟩
  cases hdecode : Utf8.decode? octets with
  | none => rfl
  | some t =>
    rw [read_of_text hdecode] at h
    cases hhead : readHead (headOf (trimEnd (· == '\x00') t)) with
    | ok r =>
      rw [hhead] at h
      cases h
    | error f =>
      rw [hhead] at h
      exact absurd (Except.error.inj h) (ne_notText_of_readHead hhead)

/-- A message is refused for being no text when its head or its body is none. -/
theorem read_message_eq_notText_iff (head body : Octets) (id : Nat) :
    read (head ++ headEnd ++ body) id = .error .notText ↔
      Utf8.decode? head = none ∨ Utf8.decode? body = none := by
  rw [read_eq_notText_iff, decode?_message]
  cases Utf8.decode? head with
  | none => exact iff_of_true rfl (.inl rfl)
  | some t => simp

/-! ### Two bodies -/

/-- **Bodies.** Two messages with the same head and different bodies are read as the same, a request
or a refusal, when both bodies are texts or neither is, and when the head itself is no text; never
otherwise. That an empty line stands in what is called the head here does no harm: it ends the
head before. -/
theorem read_eq_read_iff (head body₁ body₂ : Octets) (id : Nat) :
    read (head ++ headEnd ++ body₁) id = read (head ++ headEnd ++ body₂) id ↔
      Utf8.decode? head = none ∨ (Utf8.decode? body₁ = none ↔ Utf8.decode? body₂ = none) := by
  have hrefused₁ := read_message_eq_notText_iff head body₁ id
  have hrefused₂ := read_message_eq_notText_iff head body₂ id
  constructor
  · intro h
    rw [h, hrefused₂] at hrefused₁
    by_cases hhead : Utf8.decode? head = none
    · exact .inl hhead
    · simp only [hhead, false_or] at hrefused₁
      exact .inr hrefused₁.symm
  · intro h
    cases hhead : Utf8.decode? head with
    | none => rw [hrefused₁.mpr (.inl hhead), hrefused₂.mpr (.inl hhead)]
    | some t =>
      have hsame : Utf8.decode? body₁ = none ↔ Utf8.decode? body₂ = none := by
        simpa [hhead] using h
      cases hbody₁ : Utf8.decode? body₁ with
      | none => rw [hrefused₁.mpr (.inr hbody₁), hrefused₂.mpr (.inr (hsame.mp hbody₁))]
      | some u =>
        obtain ⟨v, hbody₂⟩ : ∃ v, Utf8.decode? body₂ = some v := by
          rw [← Option.ne_none_iff_exists', ne_eq, ← hsame, hbody₁]
          exact Option.some_ne_none u
        rw [read_message hhead hbody₁, read_message hhead hbody₂]

/-- It is not so that the body of a message makes no difference: a request that is read without a
body is refused when its body breaks off inside a character. -/
theorem not_forall_read_eq :
    ¬∀ (head body₁ body₂ : Octets) (id : Nat), ¬headEnd <:+: head →
      read (head ++ headEnd ++ body₁) id = read (head ++ headEnd ++ body₂) id := by
  intro h
  have hsame := h (Utf8.encode "POST /notes HTTP/1.1") [] [0xC3] 7 (by decide +kernel)
  have hrefused : read (Utf8.encode "POST /notes HTTP/1.1" ++ headEnd ++ [0xC3]) 7 =
      .error .notText :=
    (read_message_eq_notText_iff _ _ _).mpr (.inr (by decide +kernel))
  rw [hrefused, read_message_eq_notText_iff] at hsame
  exact absurd hsame (by decide +kernel)

end Request

end Webroot.Http
