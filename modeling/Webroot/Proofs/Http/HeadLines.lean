import Webroot.Proofs.Http.Head

/-!
# Heads, cut into lines as octets

Someone who reads octets from a connection cuts them at the two octets of a line end, before
anything is decoded. The lines that are found are the lines of the text that was encoded
(`octetLines_encode`): an octet 13 or 10 is that of a line end character, never part of a longer
one. So what a head says of its lines as a text (`Response.lines_head`) it says of its octets.

Main statement: `Response.octetLines_head`.
-/

namespace Webroot.Http

open Text

/-- The lines of octets: the pieces between the line ends 13 10, at least one. -/
def octetLines : Octets → List Octets
  | [] => [[]]
  | b :: r =>
    match b, r with
    | 13, 10 :: r' => [] :: octetLines r'
    | b, r => (octetLines r).modifyHead (b :: ·)

/-- Octets without a 13 among them stand at the front of the first line. -/
theorem octetLines_append {o : Octets} (h : 13 ∉ o) (rest : Octets) :
    octetLines (o ++ rest) = (octetLines rest).modifyHead (o ++ ·) := by
  induction o with
  | nil => exact (congrFun List.modifyHead_id (octetLines rest)).symm
  | cons b o ih =>
    obtain ⟨hb, ho⟩ : 13 ≠ b ∧ 13 ∉ o := by simpa using h
    have hline : octetLines (b :: (o ++ rest)) =
        (octetLines (o ++ rest)).modifyHead (b :: ·) :=
      octetLines.eq_3 b (o ++ rest) fun _ hreturn _ => hb hreturn.symm
    rw [List.cons_append, hline, ih ho, List.modifyHead_modifyHead]
    rfl

/-- A carriage return that no line feed follows stands at the front of the first line. -/
theorem octetLines_return {o : Octets} (h : o.head? ≠ some 10) :
    octetLines (13 :: o) = (octetLines o).modifyHead (13 :: ·) := by
  refine octetLines.eq_3 13 o fun r' _ hfeed => h ?_
  rw [hfeed, List.head?_cons]

theorem head?_encode_eq_feed {t : Text} (h : (Utf8.encode t).head? = some 10) :
    t.head? = some '\n' := by
  cases t with
  | nil => cases h
  | cons c t =>
    obtain ⟨b, o, hoctets⟩ := List.exists_cons_of_ne_nil (Utf8.encodeChar_ne_nil c)
    rw [Utf8.encode_cons, hoctets, List.cons_append, List.head?_cons, Option.some.injEq] at h
    have hmem : (10 : UInt8) ∈ Utf8.encode [c] := by
      simp [Utf8.encode, hoctets, h]
    rw [List.mem_singleton.mp (Utf8.mem_of_mem_encode (c := '\n') (by decide) hmem)]
    rfl

/-- The lines of an encoded text are its lines, encoded. -/
theorem octetLines_encode (t : Text) :
    octetLines (Utf8.encode t) = (lines t).map Utf8.encode := by
  have hhead : ∀ (c : Char) (ls : List Text),
      (ls.map Utf8.encode).modifyHead (Utf8.encodeChar c ++ ·) =
        (ls.modifyHead (c :: ·)).map Utf8.encode := by
    intro c ls
    cases ls with
    | nil => rfl
    | cons l ls => rfl
  induction t using lines.induct with
  | case1 => rfl
  | case2 r ih =>
    rw [lines, List.map_cons, ← ih]
    rfl
  | case3 c r hend ih =>
    rw [lines.eq_3 c r hend, ← hhead, ← ih, Utf8.encode_cons]
    by_cases hc : c = '\r'
    · -- the text does not go on with a line feed, nor do its octets
      subst hc
      refine octetLines_return fun hfeed => ?_
      obtain ⟨r', hr'⟩ := List.head?_eq_some_iff.mp (head?_encode_eq_feed hfeed)
      exact hend r' rfl hr'
    · refine octetLines_append (fun hmem => hc ?_) _
      have hreturn : (13 : UInt8) ∈ Utf8.encode [c] := by
        simpa [Utf8.encode] using hmem
      exact (List.mem_singleton.mp (Utf8.mem_of_mem_encode (c := '\r') (by decide) hreturn)).symm

/-! ### Heads -/

namespace Response

/-- The stored fields are sent as they are, with at most a length added to them. -/
theorem exists_sentFields_eq (r : Response) :
    ∃ added, (added = [] ∨ added = [(("Content-Length" : Text), decimal r.body.length)]) ∧
      r.sentFields = r.fields ++ added := by
  refine ⟨_, ?_, rfl⟩
  split_ifs
  · exact .inr rfl
  · exact .inl rfl

/-- **Heads as octets.** Cut into lines, the octets of a head are the status line, a line for each
stored field in order, at most one line with a length that is added, the date, the server and the
empty line that ends the head. Nothing follows it. -/
theorem octetLines_head {r : Response} (h : ∀ f ∈ r.fields, Multipart.PlainField f.1 f.2)
    (now : Instant) :
    ∃ added, (added = [] ∨ added = [(("Content-Length" : Text), decimal r.body.length)]) ∧
      octetLines (Utf8.encode (r.head now)) =
        (r.statusLine :: ((r.fields ++ added).map (fun f => Multipart.fieldText f.1 f.2) ++
          [Multipart.fieldText "Date" (HttpDate.format now.seconds),
            Multipart.fieldText "Server" serverName, [], []])).map Utf8.encode := by
  obtain ⟨added, hadded, hsent⟩ := r.exists_sentFields_eq
  refine ⟨added, hadded, ?_⟩
  rw [octetLines_encode, lines_head h, hsent, List.map_append, List.append_assoc]
  rfl

end Response

end Webroot.Http
