import Webroot.Mount.Ranges
import Webroot.Proofs.Http.RangeField
import Webroot.Proofs.Text.Utf8

/-!
# Bodies of several parts, read

A reader that knows nothing but the octets of a body and the boundary: it reads a line with the
boundary, the fields of a head up to an empty line, as many octets as the content-range field of
the head names, and a line end, and so on up to the closing line, after which nothing may follow.

Main statement: `parts?_written`. The reader gives back the spans that were written, in order and
with their bytes, whatever these bytes are: it never looks for the boundary in them.
-/

namespace Webroot.Http

open Text

/-- The span that the value of a content-range field names. -/
def Span.ofContentRange? (value : Text) : Option Span := do
  let t ← after? "bytes " value
  let (first, t) ← cut '-' t
  let (last, _) ← cut '/' t
  let first ← readDecimal? first
  let last ← readDecimal? last
  some ⟨first, last⟩

/-- The span is read back from the value that it was written to. -/
theorem Span.ofContentRange?_contentRange (span : Span) (size : Nat) :
    Span.ofContentRange? (span.contentRange size) = some span := by
  have hvalue : span.contentRange size =
      "bytes " ++ (decimal span.first ++ '-' :: (decimal span.last ++ '/' :: decimal size)) := by
    unfold Span.contentRange
    simp
  have hfirst := cut_append_cons (not_mem_decimal (c := '-') rfl span.first)
    (decimal span.last ++ '/' :: decimal size)
  have hlast := cut_append_cons (not_mem_decimal (c := '/') rfl span.last) (decimal size)
  simp only [Span.ofContentRange?, hvalue, after?_append, hfirst, hlast, readDecimal?_decimal,
    Option.bind_eq_bind, Option.bind_some]

namespace Multipart

/-! ### Lines and heads -/

/-- The text before the first line end, and what follows the line end. -/
def line? (o : Octets) : Option (Text × Octets) :=
  match o.dropWhile (· != 13) with
  | 13 :: 10 :: rest => (Utf8.decode? (o.takeWhile (· != 13))).map fun t => (t, rest)
  | _ => none

theorem length_lt_of_line? {o rest : Octets} {t : Text} (h : line? o = some (t, rest)) :
    rest.length < o.length := by
  rw [line?] at h
  split at h
  · rename_i rest' hdrop
    obtain ⟨t', -, ht⟩ := Option.map_eq_some_iff.mp h
    obtain ⟨-, rfl⟩ := Prod.mk.inj ht
    have hle := (List.dropWhile_suffix (l := o) (· != 13)).length_le
    rw [hdrop, List.length_cons, List.length_cons] at hle
    omega
  · cases h

/-- The fields of a head up to the empty line after it, and what follows that line. -/
def head? (o : Octets) : Option (List (Text × Text) × Octets) :=
  match _h : line? o with
  | none => none
  | some ([], rest) => some ([], rest)
  | some (c :: line, rest) =>
    (cutAt ": " (c :: line)).bind fun field =>
      (head? rest).map fun (fields, rest) => (field :: fields, rest)
  termination_by o.length
  decreasing_by exact length_lt_of_line? _h

theorem head?_of_empty {o rest : Octets} (h : line? o = some ([], rest)) :
    head? o = some ([], rest) := by
  rw [head?]
  split
  · simp_all
  · simp_all
  · simp_all

theorem head?_of_line {o rest : Octets} {line : Text} (h : line? o = some (line, rest))
    (hne : line ≠ []) :
    head? o = (cutAt ": " line).bind fun field =>
      (head? rest).map fun (fields, rest) => (field :: fields, rest) := by
  rw [head?]
  split
  · simp_all
  · simp_all
  · rename_i c line' rest' hline
    obtain ⟨rfl, rfl⟩ := Prod.mk.inj (Option.some.inj (hline.symm.trans h))
    rfl

theorem length_le_of_head? {o rest : Octets} {fields : List (Text × Text)}
    (h : head? o = some (fields, rest)) : rest.length ≤ o.length := by
  fun_induction head? o generalizing fields rest with
  | case1 => cases h
  | case2 o rest' hline =>
    have hlt := length_lt_of_line? hline
    obtain ⟨-, rfl⟩ := Prod.mk.inj (Option.some.inj h)
    omega
  | case3 o c line rest' hline ih =>
    have hlt := length_lt_of_line? hline
    simp only [Option.bind_eq_some_iff, Option.map_eq_some_iff, Prod.mk.injEq, Prod.exists] at h
    obtain ⟨name, value, -, fields', rest'', hrest, -, rfl⟩ := h
    have hle := ih hrest
    omega

/-! ### Parts -/

/-- A part as it is read: the fields of its head and its content. -/
structure Part where
  fields : List (Text × Text)
  content : Octets
  deriving DecidableEq, Repr

/-- The part after a line with the boundary, and what follows it. The content is as long as the
content-range field says. -/
def part? (o : Octets) : Option (Part × Octets) := do
  let (fields, rest) ← head? o
  let range ← fields.lookup ("Content-Range" : Text)
  let span ← Span.ofContentRange? range
  -- the content is measured, not searched: a boundary in it is content
  match rest.drop span.length with
  | 13 :: 10 :: after =>
    if span.length ≤ rest.length then some (⟨fields, rest.take span.length⟩, after) else none
  | _ => none

theorem length_le_of_part? {o after : Octets} {p : Part} (h : part? o = some (p, after)) :
    after.length ≤ o.length := by
  simp only [part?, Option.bind_eq_bind, Option.bind_eq_some_iff, Prod.exists] at h
  obtain ⟨fields, rest, hhead, range, -, span, -, h⟩ := h
  have hle := length_le_of_head? hhead
  split at h
  · rename_i after' hdrop
    split at h
    · obtain ⟨-, rfl⟩ := Prod.mk.inj (Option.some.inj h)
      have hlength := congrArg List.length hdrop
      rw [List.length_drop, List.length_cons, List.length_cons] at hlength
      omega
    · cases h
  · cases h

/-- The parts of a body with this boundary. The closing line has to end the body. -/
def parts? (boundary : Text) (o : Octets) : Option (List Part) :=
  match _h : line? o with
  | none => none
  | some (line, rest) =>
    if line = "--" ++ boundary ++ "--" then if rest.isEmpty then some [] else none
    else if line = "--" ++ boundary then
      match _h' : part? rest with
      | none => none
      | some (part, after) => (parts? boundary after).map (part :: ·)
    else none
  termination_by o.length
  decreasing_by
    have hlt := length_lt_of_line? _h
    have hle := length_le_of_part? _h'
    omega

theorem parts?_of_closing {boundary : Text} {o : Octets}
    (h : line? o = some ("--" ++ boundary ++ "--", [])) : parts? boundary o = some [] := by
  rw [parts?]
  split
  · simp_all
  · rename_i line rest hline
    obtain ⟨rfl, rfl⟩ := Prod.mk.inj (Option.some.inj (hline.symm.trans h))
    rw [if_pos rfl]
    rfl

theorem parts?_of_boundary {boundary : Text} {o rest after : Octets} {p : Part}
    (h : line? o = some ("--" ++ boundary, rest)) (hp : part? rest = some (p, after)) :
    parts? boundary o = (parts? boundary after).map (p :: ·) := by
  -- no boundary makes its line the closing line, which is longer
  have hne : ("--" ++ boundary : Text) ≠ "--" ++ boundary ++ "--" := by
    intro heq
    have hlength := congrArg List.length heq
    simp at hlength
  rw [parts?]
  split
  · simp_all
  · rename_i line rest' hline
    obtain ⟨rfl, rfl⟩ := Prod.mk.inj (Option.some.inj (hline.symm.trans h))
    rw [if_neg hne, if_pos rfl]
    split
    · simp_all
    · rename_i p' after' hp'
      obtain ⟨rfl, rfl⟩ := Prod.mk.inj (Option.some.inj (hp'.symm.trans hp))
      rfl

/-! ### Reading what was written -/

/-- A line that was written is read as it is. -/
theorem line?_encode {t : Text} (ht : '\r' ∉ t) (rest : Octets) :
    line? (Utf8.encode t ++ 13 :: 10 :: rest) = some (t, rest) := by
  have hreturn : ∀ b ∈ Utf8.encode t, (b != 13) = true := by
    intro b hb
    rw [bne_iff_ne]
    rintro rfl
    -- the octet 13 is that of a carriage return, never part of a longer character
    exact ht (Utf8.mem_of_mem_encode (c := '\r') (by decide) hb)
  rw [line?, List.dropWhile_append_of_pos hreturn, List.takeWhile_append_of_pos hreturn]
  simp [Utf8.decode?_encode]

/-- A field is **plain** when its name holds no colon, and neither its name nor its value holds a
carriage return. -/
structure PlainField (name value : Text) : Prop where
  colon : ':' ∉ name
  name : '\r' ∉ name
  value : '\r' ∉ value

/-- A field line without its line end. -/
def fieldText (name value : Text) : Text := name ++ ": " ++ value

theorem PlainField.return_not_mem {name value : Text} (h : PlainField name value) :
    '\r' ∉ fieldText name value := by
  simp only [fieldText, List.mem_append, not_or]
  exact ⟨⟨h.name, by decide⟩, h.value⟩

/-- A field line does not start with a line end. -/
theorem PlainField.head?_ne {name value : Text} (h : PlainField name value) (rest : Text) :
    (fieldText name value ++ rest).head? ≠ some '\r' := by
  obtain ⟨c, t, hcons⟩ : ∃ c t, fieldText name value = c :: t :=
    List.exists_cons_of_ne_nil (by simp [fieldText])
  intro heq
  have hc : c = '\r' := by simpa [hcons] using heq
  refine h.return_not_mem ?_
  rw [hcons, hc]
  exact List.mem_cons_self

/-- A field line is cut at the colon behind its name. -/
theorem cut_fieldText {name : Text} (h : ':' ∉ name) (value : Text) :
    cut ':' (fieldText name value) = some (name, ' ' :: value) := by
  rw [← cut_append_cons h (' ' :: value), fieldText]
  simp

/-- A field line is cut where it was joined. -/
theorem cutAt_fieldText {name : Text} (h : ':' ∉ name) (value : Text) :
    cutAt ": " (fieldText name value) = some (name, value) := by
  induction name with
  | nil => rfl
  | cons c name ih =>
    obtain ⟨hc, hname⟩ : ':' ≠ c ∧ ':' ∉ name := by simpa using h
    have hafter : after? ": " (fieldText (c :: name) value) = none := if_neg hc
    have hcons : fieldText (c :: name) value = c :: fieldText name value := rfl
    rw [hcons] at hafter ⊢
    rw [cutAt, hafter]
    simp only [ih hname, Option.map_some]

/-- The lines of fields. -/
def fieldLines (fields : List (Text × Text)) : Text :=
  fields.flatMap fun f => Response.fieldLine f.1 f.2

/-- The octets of the lines of fields, from the first line end on. -/
theorem encode_fieldLines_cons (name value : Text) (fields : List (Text × Text)) (o : Octets) :
    Utf8.encode (fieldLines ((name, value) :: fields)) ++ o =
      Utf8.encode (fieldText name value) ++
        13 :: 10 :: (Utf8.encode (fieldLines fields) ++ o) := by
  rw [fieldLines, List.flatMap_cons, ← fieldLines, Response.fieldLine, Utf8.encode_append,
    Utf8.encode_append, List.append_assoc, List.append_assoc]
  rfl

/-- The fields of a head that was written are read in order. -/
theorem head?_fieldLines {fields : List (Text × Text)} (h : ∀ f ∈ fields, PlainField f.1 f.2)
    (rest : Octets) :
    head? (Utf8.encode (fieldLines fields) ++ 13 :: 10 :: rest) = some (fields, rest) := by
  induction fields with
  | nil => exact head?_of_empty (line?_encode (t := []) List.not_mem_nil rest)
  | cons f fields ih =>
    obtain ⟨name, value⟩ := f
    obtain ⟨hf, hfields⟩ := List.forall_mem_cons.mp h
    -- the colon makes the line no empty one, so the head does not end here
    have hne : fieldText name value ≠ [] := by
      simp [fieldText]
    rw [encode_fieldLines_cons, head?_of_line (line?_encode hf.return_not_mem _) hne,
      cutAt_fieldText hf.colon value, Option.bind_some, ih hfields]
    rfl

/-- A part is **framed** when its fields are plain and its content-range field names as many octets
as its content has. -/
structure Part.Framed (p : Part) : Prop where
  plain : ∀ f ∈ p.fields, PlainField f.1 f.2
  range : ∃ span size,
    p.fields.lookup ("Content-Range" : Text) = some (Span.contentRange span size) ∧
    p.content.length = span.length

/-- A part as it is written: the line with the boundary, the head, the content and a line end. -/
def Part.written (boundary : Text) (p : Part) : Octets :=
  Utf8.encode ("--" ++ boundary) ++ 13 :: 10 ::
    (Utf8.encode (fieldLines p.fields) ++ 13 :: 10 :: (p.content ++ lineEnd))

theorem Part.written_append (boundary : Text) (p : Part) (o : Octets) :
    p.written boundary ++ o =
      Utf8.encode ("--" ++ boundary) ++ 13 :: 10 ::
        (Utf8.encode (fieldLines p.fields) ++ 13 :: 10 :: (p.content ++ 13 :: 10 :: o)) := by
  simp [Part.written, lineEnd]

/-- The content of a part is read whatever it is, the boundary included. -/
theorem part?_written {p : Part} (h : p.Framed) (rest : Octets) :
    part? (Utf8.encode (fieldLines p.fields) ++ 13 :: 10 :: (p.content ++ 13 :: 10 :: rest)) =
      some (p, rest) := by
  obtain ⟨span, size, hrange, hlength⟩ := h.range
  have htake : (p.content ++ 13 :: 10 :: rest).take span.length = p.content := by
    rw [← hlength, List.take_left]
  have hdrop : (p.content ++ 13 :: 10 :: rest).drop span.length = 13 :: 10 :: rest := by
    rw [← hlength, List.drop_left]
  have hle : span.length ≤ (p.content ++ 13 :: 10 :: rest).length := by
    rw [← hlength, List.length_append]
    omega
  simp only [part?, head?_fieldLines h.plain, hrange, Span.ofContentRange?_contentRange,
    Option.bind_eq_bind, Option.bind_some, hdrop, htake, if_pos hle]

/-- **Reading undoes writing.** The parts written between boundaries and before the closing line are
read in order and with nothing lost. -/
theorem parts?_written {boundary : Text} (hboundary : '\r' ∉ boundary) {parts : List Part}
    (h : ∀ p ∈ parts, p.Framed) :
    parts? boundary (parts.flatMap (Part.written boundary) ++
      Utf8.encode (Ranges.closing boundary)) = some parts := by
  induction parts with
  | nil =>
    -- the closing line ends the body
    have hlast : '\r' ∉ "--" ++ boundary ++ "--" := by simpa using hboundary
    have hclosing : Utf8.encode (Ranges.closing boundary) =
        Utf8.encode ("--" ++ boundary ++ "--") ++ 13 :: 10 :: [] := by
      unfold Ranges.closing
      simp only [Utf8.encode_append, List.append_assoc]
      rfl
    rw [List.flatMap_nil, List.nil_append, hclosing]
    exact parts?_of_closing (line?_encode hlast [])
  | cons p parts ih =>
    obtain ⟨hp, hparts⟩ := List.forall_mem_cons.mp h
    have hfirst : '\r' ∉ "--" ++ boundary := by simpa using hboundary
    rw [List.flatMap_cons, List.append_assoc, Part.written_append,
      parts?_of_boundary (line?_encode hfirst _) (part?_written hp _), ih hparts]
    rfl

end Multipart

end Webroot.Http
