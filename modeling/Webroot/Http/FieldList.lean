import Webroot.Text.Blank

/-!
# Lists in header fields

The value of a field that holds a list is cut at its commas, but not at a comma inside a quoted
string. A quoted string holds at least one character; in it a backslash makes the next character
plain, as long as a quote that can close the string is still to come. A quote that opens no
quoted string separates elements like a comma does.
-/

namespace Webroot.Http

open Text

/-- Whether a backslash before this text makes the next character plain. -/
def escapesNext : Text → Bool
  | [] => false
  | d :: r => d != '\n' && r.contains '"'

/-- Reads a quoted string that has been opened and holds a character already: its remaining text
with the closing quote, and what follows. With `plain`, the next character was made plain. -/
def untilQuote (plain : Bool) : Text → Option (Text × Text)
  | [] => none
  | c :: r =>
    if c = '"' ∧ plain = false then some (['"'], r)
    else
      (untilQuote (c == '\\' && !plain && escapesNext r) r).map fun (q, rest) => (c :: q, rest)

/-- Reads the rest of a quoted string after its opening quote: its text with the closing quote,
and what follows. -/
def quotedRest? (r : Text) : Option (Text × Text) :=
  if r.head? = some '"' then none else untilQuote false r

theorem untilQuote_append {plain : Bool} {r q rest : Text}
    (h : untilQuote plain r = some (q, rest)) : q ++ rest = r := by
  fun_induction untilQuote plain r generalizing q rest with
  | case1 => simp at h
  | case2 plain c r hc =>
    simp only [Option.some.injEq, Prod.mk.injEq] at h
    obtain ⟨rfl, rfl⟩ := h
    simp [hc.1]
  | case3 plain c r _ ih =>
    simp only [Option.map_eq_some_iff, Prod.exists, Prod.mk.injEq] at h
    obtain ⟨q', rest', h, rfl, rfl⟩ := h
    simp [ih h]

/-- The text read and what follows make up the input. -/
theorem quotedRest?_append {r q rest : Text} (h : quotedRest? r = some (q, rest)) :
    q ++ rest = r := by
  simp only [quotedRest?] at h
  split at h
  · simp at h
  · exact untilQuote_append h

/-- The element at the start of a list, a run of quoted strings and of characters other than
quotes and commas, and what follows it. -/
def element : Text → Text × Text
  | [] => ([], [])
  | c :: r =>
    if c = ',' then ([], c :: r)
    else if c = '"' then
      match _h : quotedRest? r with
      | none => ([], c :: r)
      | some (q, rest) =>
        (c :: q ++ (element rest).1, (element rest).2)
    else (c :: (element r).1, (element r).2)
  termination_by t => t.length
  decreasing_by
    · have := congrArg List.length (quotedRest?_append _h)
      simp only [List.length_append, List.length_cons] at this ⊢
      omega
    · simp

/-- The element and what follows it make up the input. -/
theorem element_append (t : Text) : (element t).1 ++ (element t).2 = t := by
  fun_induction element t with
  | case1 => rfl
  | case2 => rfl
  | case3 => rfl
  | case4 r q rest h _ ih => simp [ih, quotedRest?_append h]
  | case5 c r _ _ ih => simpa using ih

/-- The elements of a list as they stand, with the blanks around them. -/
def rawElements : Text → List Text
  | [] => []
  | c :: r =>
    match _h : element (c :: r) with
    | ([], _) => rawElements r
    | (e :: es, rest) => (e :: es) :: rawElements rest
  termination_by t => t.length
  decreasing_by
    · simp
    · have := congrArg List.length (element_append (c :: r))
      simp only [_h, List.length_append, List.length_cons] at this ⊢
      omega

/-- The elements of a comma-separated list, without the blanks around them and without empty
ones. -/
def listElements (value : Text) : List Text :=
  ((rawElements value).map trim).filter fun e => !e.isEmpty

end Webroot.Http
