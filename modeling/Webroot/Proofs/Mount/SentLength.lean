import Webroot.Proofs.Http.AddedLengths

/-!
# The length that is announced and the bytes that are sent

A body announces its length before it is sent, but its file is read only while it is sent, and may
hold fewer bytes by then. Sending reports a count, and the count is always the number of bytes that
went out (`Http.Body.counted_send`). Whether it is also the length that was announced has to be seen
to by each kind of body. A body of several parts compares what it has read of each part with the
length of the part, and ends with an error when bytes are missing
(`Http.Body.of_send_multipart_eq_ok`). A single piece of a file makes no such comparison: it ends
early and reports the smaller count as if nothing were wrong.

Main statements: `Http.Body.keepsLength_iff`, and `Http.Body.not_forall_keepsLength` for a piece of
a file that has become too short.
-/

namespace Webroot

open Http

/-! ### Bytes that are not there -/

/-- The number of bytes of a source. Only files hold bytes. -/
def Source.size : Source → Nat
  | .content bytes => bytes.length
  | .directory | .pipe => 0

/-- A source **lacks** bytes of a piece when fewer than `length` of its bytes come after the
position. A piece of no bytes is never lacking, wherever it stands. -/
def Source.Lacks (source : Source) (position length : Nat) : Prop :=
  source.size - position < length

instance (source : Source) (position length : Nat) : Decidable (source.Lacks position length) :=
  inferInstanceAs (Decidable (_ < _))

/-- A body **lacks** bytes when it refers to bytes that its file does not hold. -/
def Http.Body.Lacks : Body → Prop
  | .empty | .bytes _ => False
  | .file source position length => source.Lacks position length
  | .multipart source parts _ => ∃ p ∈ parts, source.Lacks p.first p.length

/-- Reading gives all bytes that are asked for, or those that are there. -/
theorem Source.length_of_read {source : Source} {position count : Nat} {got : Octets}
    (h : source.read position count = .ok got) :
    got.length = min count (source.size - position) := by
  cases source with
  | content bytes =>
    obtain rfl := Except.ok.inj h
    rw [List.length_take, List.length_drop, size]
  | directory =>
    rw [read] at h
    split at h
    · rename_i hcount
      obtain rfl := Except.ok.inj h
      rw [hcount, Nat.zero_min, List.length_nil]
    · cases h
  | pipe =>
    obtain rfl := Except.ok.inj h
    rw [size, Nat.zero_sub, Nat.min_zero, List.length_nil]

/-! ### The count of bytes -/

namespace Http.Sent

variable {s next : Sent} {n : Nat}

/-- Sending is **counted** when it reports the number of bytes that went out, unless it fails. -/
def Counted (s : Sent) : Prop := ∀ n, s.result = .ok n → s.bytes.length = n

/-- Two things are sent without an error when both are, and their counts are added. -/
theorem of_andThen_eq_ok (h : (s.andThen next).result = .ok n) :
    ∃ i j, s.result = .ok i ∧ next.result = .ok j ∧ n = i + j ∧
      (s.andThen next).bytes = s.bytes ++ next.bytes := by
  rw [andThen] at h ⊢
  cases hs : s.result with
  | error e =>
    rw [hs] at h
    exact absurd (hs.symm.trans h) (by simp)
  | ok i =>
    rw [hs] at h
    cases hnext : next.result with
    | error e =>
      rw [hnext] at h
      cases h
    | ok j =>
      rw [hnext] at h
      exact ⟨i, j, rfl, rfl, (Except.ok.inj h).symm, rfl⟩

theorem counted_ofBytes (bytes : Octets) : (ofBytes bytes).Counted :=
  fun _ h => Except.ok.inj h

theorem counted_of_error {e : TransferError} (h : s.result = .error e) : s.Counted :=
  fun _ hok => absurd (h.symm.trans hok) (by simp)

theorem Counted.andThen (hs : s.Counted) (hnext : next.Counted) : (s.andThen next).Counted := by
  intro n h
  obtain ⟨i, j, hi, hj, rfl, hbytes⟩ := of_andThen_eq_ok h
  rw [hbytes, List.length_append, hs i hi, hnext j hj]

end Http.Sent

/-! ### Parts -/

namespace Http.BytePart

variable {source : Source} {p : BytePart} {n : Nat}

theorem counted_sendContent (source : Source) (p : BytePart) : (p.sendContent source).Counted := by
  rw [sendContent]
  split
  · exact Sent.counted_of_error rfl
  · split
    · exact Sent.counted_of_error rfl
    · split
      · exact Sent.counted_of_error rfl
      · exact Sent.counted_ofBytes _

/-- The content of a part is sent whole or not without an error. -/
theorem of_sendContent_eq_ok (h : (p.sendContent source).result = .ok n) :
    n = p.length ∧ ¬source.Lacks p.first p.length := by
  rw [sendContent] at h
  split at h
  · cases h
  · split at h
    · cases h
    · rename_i got hread
      have hlength := Source.length_of_read hread
      split at h
      · cases h
      · obtain rfl := Except.ok.inj h
        rw [Source.Lacks]
        omega

theorem counted_send (source : Source) (p : BytePart) : (p.send source).Counted :=
  ((Sent.counted_ofBytes _).andThen (counted_sendContent source p)).andThen
    (Sent.counted_ofBytes _)

/-- A part that is sent without an error takes up as many bytes as its head, its content and a line
end have. -/
theorem of_send_eq_ok (h : (p.send source).result = .ok n) :
    n = p.size ∧ ¬source.Lacks p.first p.length := by
  obtain ⟨i, j, hi, hj, rfl, -⟩ := Sent.of_andThen_eq_ok h
  obtain ⟨k, l, hk, hl, rfl, -⟩ := Sent.of_andThen_eq_ok hi
  obtain ⟨rfl, hlacks⟩ := of_sendContent_eq_ok hl
  obtain rfl := Except.ok.inj hj
  obtain rfl := Except.ok.inj hk
  exact ⟨rfl, hlacks⟩

end Http.BytePart

/-! ### Bodies -/

namespace Http.Body

variable {source : Source} {parts : List BytePart} {closing : Octets} {body : Body} {n : Nat}

/-- The count of bytes is right for every body, and also when its file has become too short. -/
theorem counted_send (body : Body) : body.send.Counted := by
  cases body with
  | empty => exact Sent.counted_ofBytes _
  | bytes content => exact Sent.counted_ofBytes _
  | file source position length =>
    rw [send]
    split
    · exact Sent.counted_of_error rfl
    · exact Sent.counted_ofBytes _
  | multipart source parts closing =>
    rw [send]
    induction parts with
    | nil => exact Sent.counted_ofBytes _
    | cons p parts ih => exact (BytePart.counted_send source p).andThen ih

/-- A body of several parts is sent without an error only if no part lacks bytes, and then the count
is the sum of all lengths. -/
theorem of_send_multipart_eq_ok (h : (multipart source parts closing).send.result = .ok n) :
    n = (multipart source parts closing).length ∧ ¬(multipart source parts closing).Lacks := by
  rw [send] at h
  induction parts generalizing n with
  | nil =>
    obtain rfl := Except.ok.inj h
    refine ⟨rfl, ?_⟩
    rintro ⟨q, hq, -⟩
    cases hq
  | cons p parts ih =>
    obtain ⟨i, j, hi, hj, rfl, -⟩ := Sent.of_andThen_eq_ok h
    obtain ⟨rfl, hp⟩ := BytePart.of_send_eq_ok hi
    obtain ⟨rfl, hparts⟩ := ih hj
    refine ⟨rfl, ?_⟩
    rintro ⟨q, hq, hlacks⟩
    rcases List.mem_cons.mp hq with rfl | hq
    · exact hp hlacks
    · exact hparts ⟨q, hq, hlacks⟩

/-- A body **keeps its length** when sending it without an error sends as many bytes as were
announced and reports their number, and when bytes that its file does not hold are an error. -/
structure KeepsLength (body : Body) : Prop where
  count : ∀ n, body.send.result = .ok n →
    (∀ o, body.length? o = some n) ∧ body.send.bytes.length = n
  error : body.Lacks → ∃ e, body.send.result = .error e

/-- A body **ends early** when it is a single piece of a file or a pipe that lacks bytes. -/
def EndsEarly : Body → Prop
  | .file source position length => source ≠ .directory ∧ source.Lacks position length
  | _ => False

/-- What is there of the piece is sent, and no error is reported. -/
theorem EndsEarly.exists_send (h : body.EndsEarly) :
    ∃ n, n < body.length ∧ body.send.result = .ok n ∧ body.send.bytes.length = n := by
  match body with
  | .file source position length =>
    obtain ⟨hdirectory, hlacks⟩ := h
    obtain ⟨got, hread⟩ : ∃ got, source.read position length = .ok got := by
      cases source with
      | content bytes => exact ⟨_, rfl⟩
      | directory => exact absurd rfl hdirectory
      | pipe => exact ⟨_, rfl⟩
    have hlength := Source.length_of_read hread
    rw [Source.Lacks] at hlacks
    refine ⟨got.length, ?_, ?_, ?_⟩
    · rw [Body.length]
      omega
    · rw [send, hread]
      rfl
    · rw [send, hread]
      rfl

/-- A piece of a file that is sent without an error sends what is there of it. -/
theorem of_send_file_eq_ok {position length : Nat}
    (h : (file source position length).send.result = .ok n) :
    n = min length (source.size - position) := by
  rw [send] at h
  split at h
  · cases h
  · rename_i got hread
    obtain rfl := Except.ok.inj h
    exact Source.length_of_read hread

/-- Where bytes are missing, sending ends without an error only for a body that ends early. -/
theorem not_lacks_of_send_eq_ok (hok : body.send.result = .ok n) (hearly : ¬body.EndsEarly) :
    ¬body.Lacks := by
  intro hlacks
  cases body with
  | empty => exact hlacks
  | bytes content => exact hlacks
  | multipart source parts closing => exact (of_send_multipart_eq_ok hok).2 hlacks
  | file source position length =>
    obtain rfl : source = .directory := Classical.not_not.mp fun hne => hearly ⟨hne, hlacks⟩
    -- a directory is read only when no bytes are asked for
    have hpos : length ≠ 0 := Nat.ne_of_gt (Nat.lt_of_le_of_lt (Nat.zero_le _) hlacks)
    rw [send, Source.read, if_neg hpos] at hok
    cases hok

/-- Where no bytes are missing, the count is the number of bytes of the body. -/
theorem eq_length_of_send_eq_ok (hok : body.send.result = .ok n) (hlacks : ¬body.Lacks) :
    n = body.length := by
  cases body with
  | empty => exact (Except.ok.inj hok).symm
  | bytes content => exact (Except.ok.inj hok).symm
  | multipart source parts closing => exact (of_send_multipart_eq_ok hok).1
  | file source position length =>
    rw [Lacks, Source.Lacks, Nat.not_lt] at hlacks
    rw [of_send_file_eq_ok hok, Nat.min_eq_left hlacks, Body.length]

/-- **Announced lengths.** A body whose lengths have a sum below 2 ^ 64 keeps its length exactly
when it does not end early: the count is the length announced and the number of bytes sent, and
bytes that the file does not hold are an error. A body that ends early sends the bytes that are
there and reports their number, which is smaller than the length announced, without an error. -/
theorem keepsLength_iff (body : Body) (hfits : body.Fits) :
    (body.KeepsLength ↔ ¬body.EndsEarly) ∧
      (body.EndsEarly → ∃ n, n < body.length ∧ body.send.result = .ok n ∧
        body.send.bytes.length = n) := by
  refine ⟨⟨fun hkeeps hearly => ?_, fun hearly => ⟨fun n hok => ?_, fun hlacks => ?_⟩⟩,
    EndsEarly.exists_send⟩
  · obtain ⟨n, hless, hok, -⟩ := hearly.exists_send
    have hcount := (hkeeps.count n hok).1 .abort
    rw [length?_eq_some_length_iff.mpr hfits] at hcount
    exact absurd (Option.some.inj hcount).symm (Nat.ne_of_lt hless)
  · have hall := not_lacks_of_send_eq_ok hok hearly
    refine ⟨fun o => ?_, counted_send body n hok⟩
    rw [eq_length_of_send_eq_ok hok hall]
    exact length?_eq_some_length_iff.mpr hfits
  · cases hresult : body.send.result with
    | error e => exact ⟨e, rfl⟩
    | ok n => exact absurd hlacks (not_lacks_of_send_eq_ok hresult hearly)

/-- Ten bytes from the third one on of a file of four bytes, as a part. -/
def shortPart : Body :=
  .multipart (.content [48, 49, 50, 51]) [⟨[104], 2, 10⟩] []

/-- The same bytes as a single piece. -/
def shortPiece : Body :=
  .file (.content [48, 49, 50, 51]) 2 10

theorem keepsLength_iff_shortPart :
    (shortPart.Fits ∧ shortPiece.Fits) ∧ (∃ e, shortPart.send.result = .error e) ∧
      ¬shortPiece.KeepsLength := by
  have hlacks : shortPart.Lacks := ⟨_, List.mem_singleton_self _, by decide⟩
  have hearly : shortPiece.EndsEarly := ⟨by decide, by decide⟩
  have hkeeps := (keepsLength_iff shortPart (by decide)).1.mpr id
  exact ⟨⟨by decide, trivial⟩, hkeeps.error hlacks,
    fun h => (keepsLength_iff shortPiece trivial).1.mp h hearly⟩

/-- A piece of a file that is too short for it is sent as if all its bytes were there. -/
theorem not_forall_keepsLength : ¬∀ body : Body, body.Fits → body.KeepsLength := by
  intro h
  obtain ⟨e, he⟩ := (h shortPiece trivial).error (by decide : 4 - 2 < 10)
  cases he

end Http.Body

end Webroot
