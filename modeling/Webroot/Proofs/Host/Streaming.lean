import Webroot.Host
import Webroot.Proofs.Mount.SeveralRanges

/-!
# Bodies sent in pieces

The host does not read a file at once. It asks for a chunk again and again, and each time it gets as
many bytes as the file system has at hand. None of this is seen in what is sent: reading a piece and
then what is left is reading all of it (`Source.read_append`), so the pieces of a file, put one
after another, are the bytes that are read at once, whatever their sizes are. The same holds of the
parts of a body, between which there are heads and line ends.

Main statement: `Host.send_in_pieces`.
-/

namespace Webroot

open Http

/-! ### Reading on -/

namespace Source

variable {source : Source} {position size left : Nat} {got : Octets} {e : TransferError}

theorem read_zero (source : Source) (position : Nat) : source.read position 0 = .ok [] := by
  cases source <;> rfl

theorem length_le_of_read (h : source.read position size = .ok got) : got.length ≤ size := by
  cases source with
  | content bytes =>
    obtain rfl := Except.ok.inj h
    exact List.length_take_le _ _
  | directory =>
    rw [read] at h
    split at h
    · obtain rfl := Except.ok.inj h
      exact Nat.zero_le _
    · cases h
  | pipe =>
    obtain rfl := Except.ok.inj h
    exact Nat.zero_le _

/-- Reading a piece and then what is left is reading all of it. -/
theorem read_append (h : source.read position size = .ok got) (hgot : got ≠ [])
    (hle : size ≤ left) :
    ∃ rest, source.read (position + got.length) (left - got.length) = .ok rest ∧
      source.read position left = .ok (got ++ rest) := by
  cases source with
  | content bytes =>
    obtain rfl := Except.ok.inj h
    -- a piece is as long as it was asked for, or it ends the file
    obtain ⟨count, hcount⟩ : ∃ count, ((bytes.drop position).take size).length = count := ⟨_, rfl⟩
    have hpiece : (bytes.drop position).take size = (bytes.drop position).take count := by
      rw [← hcount, List.length_take, ← List.take_take, List.take_length]
    have hshort : count ≤ left := by
      rw [← hcount]
      exact Nat.le_trans (List.length_take_le _ _) hle
    refine ⟨(bytes.drop (position + count)).take (left - count), by rw [hcount]; rfl, ?_⟩
    rw [hpiece, ← List.drop_drop, ← List.take_add, Nat.add_sub_cancel' hshort]
    rfl
  | directory =>
    rw [read] at h
    split at h
    · exact absurd (Except.ok.inj h).symm hgot
    · cases h
  | pipe => exact absurd (Except.ok.inj h).symm hgot

/-- Where there is no byte to read there are none after it. -/
theorem read_of_nil (h : source.read position size = .ok []) (hsize : 0 < size) (left : Nat) :
    source.read position left = .ok [] := by
  cases source with
  | content bytes =>
    have hnone : bytes.drop position = [] :=
      (List.take_eq_nil_iff.mp (Except.ok.inj h)).resolve_left (Nat.ne_of_gt hsize)
    rw [read, hnone, List.take_nil]
  | directory =>
    rw [read, if_neg (Nat.ne_of_gt hsize)] at h
    cases h
  | pipe => rfl

theorem read_of_error (h : source.read position size = .error e) (hle : size ≤ left) :
    source.read position left = .error e := by
  cases source with
  | content bytes => cases h
  | directory =>
    rw [read] at h ⊢
    split at h
    · cases h
    · rwa [if_neg (by omega)]
  | pipe => cases h

/-- Sends bytes of a source that are read at once. -/
def send (source : Source) (position length : Nat) : Sent :=
  match source.read position length with
  | .error e => .failed e
  | .ok got => .ofBytes got

/-- A source **holds** bytes when it is a file that is long enough. -/
def Holds (source : Source) (first length : Nat) : Prop :=
  ∃ bytes, source = .content bytes ∧ first + length ≤ bytes.length

end Source

/-! ### The pieces, put together -/

namespace Host

variable {source : Source} {chunk : Nat} {cuts : Cuts} {step position left fuel : Nat}

/-- A step may read any number of bytes from one up to a chunk, and no other number, as long as
that many are left. -/
theorem exists_pieceSize_eq_iff (hchunk : 0 < chunk) (hleft : 0 < left) (step n : Nat) :
    (∃ cuts, pieceSize chunk cuts step left = n) ↔ 0 < n ∧ n ≤ chunk ∧ n ≤ left := by
  constructor
  · rintro ⟨cuts, rfl⟩
    rw [pieceSize]
    omega
  · intro hn
    refine ⟨fun _ => n, ?_⟩
    rw [pieceSize]
    omega

/-- The pieces of a source are what is read at once. -/
theorem pieces_eq (hchunk : 0 < chunk) (hfuel : left ≤ fuel) :
    pieces source chunk cuts fuel step position left = source.send position left := by
  induction fuel generalizing step position left with
  | zero =>
    obtain rfl := Nat.le_zero.mp hfuel
    rw [Source.send, Source.read_zero]
    rfl
  | succ fuel ih =>
    rcases Nat.eq_zero_or_pos left with rfl | hleft
    · have hnone : pieceSize chunk cuts step 0 = 0 := Nat.min_zero _
      simp only [pieces, Source.send, hnone, Source.read_zero]
    · obtain ⟨hsize, -, hle⟩ := (exists_pieceSize_eq_iff hchunk hleft step _).mp ⟨cuts, rfl⟩
      rw [pieces, Source.send]
      cases hread : source.read position (pieceSize chunk cuts step left) with
      | error e => simp only [Source.read_of_error hread hle]
      | ok got =>
        cases got with
        | nil => simp only [Source.read_of_nil hread hsize]
        | cons b bytes =>
          obtain ⟨rest, hrest, hall⟩ :=
            Source.read_append hread (List.cons_ne_nil b bytes) hle
          -- a byte was read, so that less is left than before
          have hless : left - (b :: bytes).length ≤ fuel := by
            rw [List.length_cons]
            omega
          simp only [hall, ih hless, Source.send, hrest, Sent.ofBytes_andThen]

theorem sendFile_eq (hchunk : 0 < chunk) (position length : Nat) :
    sendFile source chunk cuts step position length = source.send position length :=
  pieces_eq hchunk (Nat.le_refl _)

/-- A part that is sent in pieces is sent as if it were read at once. -/
theorem sendPart_eq (hchunk : 0 < chunk) (p : BytePart) :
    sendPart source chunk cuts step p = p.send source := by
  rw [sendPart, BytePart.send, BytePart.sendContent, sendFile_eq hchunk, Source.send]
  cases hseek : source.seekError? p.first with
  | some e => rfl
  | none =>
    cases hread : source.read p.first p.length with
    | error e => rfl
    | ok got =>
      -- there are as many bytes as were asked for, or fewer
      have hle := Source.length_le_of_read hread
      by_cases hall : got.length = p.length
      · simp [Sent.ofBytes, hall]
      · have hless : got.length < p.length := by omega
        simp [Sent.ofBytes, hall, hless]

theorem sendParts_eq (hchunk : 0 < chunk) (closing : Octets) (step : Nat)
    (parts : List BytePart) :
    sendParts source chunk cuts closing step parts =
      parts.foldr (fun p rest => (p.send source).andThen rest) (.ofBytes closing) := by
  induction parts generalizing step with
  | nil => rfl
  | cons p parts ih => rw [sendParts, sendPart_eq hchunk, ih, List.foldr_cons]

/-- A body that is sent in pieces is sent as if its file were read at once, be it long enough or
not. -/
theorem sendBody_eq (hchunk : 0 < chunk) (cuts : Cuts) (body : Body) :
    sendBody chunk cuts body = body.send := by
  cases body with
  | empty => rfl
  | bytes content => rfl
  | file source position length => exact sendFile_eq hchunk position length
  | multipart source parts closing => exact sendParts_eq hchunk closing 0 parts

end Host

/-! ### Bodies whose bytes are there -/

/-- A body is **held** when its file holds all the bytes that the body refers to. -/
def Http.Body.Held : Body → Prop
  | .empty | .bytes _ => True
  | .file source position length => source.Holds position length
  | .multipart source parts _ => ∀ p ∈ parts, source.Holds p.first p.length

namespace Source

variable {source : Source} {first length : Nat}

/-- The bytes that a source holds can be read. -/
theorem Holds.read (h : source.Holds first length) :
    ∃ got, source.read first length = .ok got ∧ got.length = length := by
  obtain ⟨bytes, rfl, hlength⟩ := h
  refine ⟨_, rfl, ?_⟩
  rw [List.length_take, List.length_drop]
  omega

theorem Holds.seekError? (h : source.Holds first length) : source.seekError? first = none := by
  obtain ⟨bytes, rfl, hlength⟩ := h
  rw [Source.seekError?]
  exact if_neg (by omega)

end Source

theorem Http.BytePart.exists_send {source : Source} {p : BytePart}
    (h : source.Holds p.first p.length) : ∃ bytes, p.send source = .ofBytes bytes := by
  obtain ⟨got, hread, hlength⟩ := h.read
  have hcontent : p.sendContent source = .ofBytes got := by
    simp [BytePart.sendContent, h.seekError?, hread, hlength]
  rw [BytePart.send, hcontent, Sent.ofBytes_andThen, Sent.ofBytes_andThen]
  exact ⟨_, rfl⟩

/-- A body that is held is sent without an error. -/
theorem Http.Body.Held.exists_send {body : Body} (h : body.Held) :
    ∃ bytes, body.send = .ofBytes bytes := by
  cases body with
  | empty => exact ⟨[], rfl⟩
  | bytes content => exact ⟨content, rfl⟩
  | file source position length =>
    obtain ⟨got, hread, -⟩ := Source.Holds.read h
    exact ⟨got, by rw [Body.send, hread]⟩
  | multipart source parts closing =>
    rw [Body.send]
    induction parts with
    | nil => exact ⟨closing, rfl⟩
    | cons p parts ih =>
      obtain ⟨hp, hparts⟩ := List.forall_mem_cons.mp h
      obtain ⟨bytes, hbytes⟩ := BytePart.exists_send hp
      obtain ⟨others, hothers⟩ := ih hparts
      rw [List.foldr_cons, hbytes, hothers, Sent.ofBytes_andThen]
      exact ⟨_, rfl⟩

/-! ### Responses -/

/-- The settings of the host have chunks of a byte at least. -/
theorem Config.chunkSize_load_pos (processors : Nat) (file : Option Octets) :
    0 < (Config.load processors file).chunkSize := by
  rw [Config.load, Config.normalize]
  dsimp only
  split
  · decide
  · exact Nat.pos_of_ne_zero ‹_›

namespace Host

/-- **Streaming.** A response is sent in pieces as it is sent at once: the same octets go out, and
sending ends the same way, however reading cuts the file into pieces and whatever the file holds.
When the file holds all the bytes that the body refers to, sending ends without an error. The chunks
have to be of a byte at least, and the settings of the host see to that. -/
theorem send_in_pieces {chunk : Nat} (hchunk : 0 < chunk) (response : Response) (now : Instant)
    (headOnly : Bool) (cuts : Cuts) :
    send response now headOnly chunk cuts = response.send now headOnly ∧
      (response.body.Held → ∃ n, (send response now headOnly chunk cuts).result = .ok n) ∧
      ∀ processors file, 0 < (Config.load processors file).chunkSize := by
  have hsame : send response now headOnly chunk cuts = response.send now headOnly := by
    rw [send, Response.send, Response.sendBody, sendBody_eq hchunk]
  refine ⟨hsame, fun hheld => ?_, Config.chunkSize_load_pos⟩
  rw [hsame, Response.send, Response.sendBody]
  cases headOnly with
  | true => exact ⟨0, rfl⟩
  | false =>
    obtain ⟨bytes, hbytes⟩ := hheld.exists_send
    exact ⟨bytes.length, by rw [if_neg (by decide), hbytes]; rfl⟩

/-- A response with the last four bytes of a file of five, and then its first two. -/
def twoParts : Response :=
  { status := 206
    body := .multipart (.content [1, 2, 3, 4, 5]) [⟨[10], 1, 4⟩, ⟨[20], 0, 2⟩] [30] }

/-- Steps of which every second one reads a single byte. -/
def stumbling : Cuts := fun step => if step % 2 = 0 then 1 else 9

theorem send_in_pieces_twoParts :
    (0 < 3 ∧ twoParts.body.Held) ∧
      send twoParts ⟨0, 0⟩ false 3 stumbling = twoParts.send ⟨0, 0⟩ false ∧
      ∃ n, (send twoParts ⟨0, 0⟩ false 3 stumbling).result = .ok n := by
  have hheld : twoParts.body.Held := by
    refine List.forall_mem_cons.mpr ⟨⟨_, rfl, by decide⟩, ?_⟩
    exact List.forall_mem_singleton.mpr ⟨_, rfl, by decide⟩
  obtain ⟨hsame, hend, -⟩ := send_in_pieces (by decide : 0 < 3) twoParts ⟨0, 0⟩ false stumbling
  exact ⟨⟨by decide, hheld⟩, hsame, hend hheld⟩

end Host

end Webroot
