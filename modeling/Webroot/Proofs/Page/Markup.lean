import Webroot.Page.Status
import Webroot.Proofs.Http.TameText

/-!
# Markup and the texts put into it

A page is made from fixed texts and from texts that come from elsewhere: paths, names of files, the
host that a client addressed. The latter must not be read as markup, so they must be **inert**: they
hold no angle bracket and no quotation mark. `Fills template page` says that a page is its template
with inert texts in the gaps. The markup of such a page is that of the fixed texts and nothing else
(`Fills.markup_eq`), so it does not depend on what was put in.

Status pages, for every code and note, fill one template (`fills_status`). Escaped text is inert,
and a reader who takes the references in it for the characters that they stand for gets back the
text that was escaped (`unescape_escape`).
-/

namespace Webroot.Page

open Text

/-! ### Inert texts -/

/-- Whether a character can begin or end a tag or the value of an attribute. -/
def isMarkup (c : Char) : Bool := c == '<' || c == '>' || c == '"'

/-- The characters of a text that can begin or end a tag or a value, in order. -/
def markup (t : Text) : Text := t.filter isMarkup

theorem markup_append (s t : Text) : markup (s ++ t) = markup s ++ markup t :=
  List.filter_append s t

/-- A text is **inert** when nothing in it begins or ends a tag or a value. -/
def Inert (t : Text) : Prop := ∀ c ∈ t, isMarkup c = false

instance (t : Text) : Decidable (Inert t) := List.decidableBAll _ t

theorem inert_iff {t : Text} : Inert t ↔ '<' ∉ t ∧ '>' ∉ t ∧ '"' ∉ t := by
  constructor
  · intro h
    have hchar : ∀ c, isMarkup c = true → c ∉ t := fun c hc hmem => by simp [h c hmem] at hc
    exact ⟨hchar _ rfl, hchar _ rfl, hchar _ rfl⟩
  · rintro ⟨hopen, hclose, hquote⟩ c hc
    have hne : ∀ d, d ∉ t → c ≠ d := fun d hd heq => hd (heq ▸ hc)
    simp [isMarkup, hne _ hopen, hne _ hclose, hne _ hquote]

theorem Inert.markup_eq {t : Text} (h : Inert t) : markup t = [] := by
  rw [markup, List.filter_eq_nil_iff]
  intro c hc
  simp [h c hc]

theorem inert_escapeChar (c : Char) : Inert (escapeChar c) := by
  rw [escapeChar.eq_def]
  split
  · decide
  · decide
  · decide
  · decide
  · decide
  · rename_i hopen hclose hquote _
    have hplain : isMarkup c = false := by simp_all [isMarkup]
    simpa [Inert] using hplain

/-- Escaped text is inert. -/
theorem inert_escape (t : Text) : Inert (escape t) := by
  intro c hc
  obtain ⟨d, -, hd⟩ := List.mem_flatMap.mp hc
  exact inert_escapeChar d c hd

/-- A tame text is inert. -/
theorem inert_of_tame {t : Text} (h : Tame t) : Inert t :=
  inert_iff.mpr ⟨h.not_mem rfl, h.not_mem rfl, h.not_mem rfl⟩

/-! ### Templates -/

/-- A template of a page: fixed texts and, where there is none, gaps. -/
abbrev Template := List (Option Text)

/-- A page **fills** a template when it is the fixed texts with an inert text in each gap. -/
inductive Fills : Template → Text → Prop where
  | nil : Fills [] []
  | fixed (t : Text) {template : Template} {page : Text} (rest : Fills template page) :
      Fills (some t :: template) (t ++ page)
  | gap {t : Text} (inert : Inert t) {template : Template} {page : Text}
      (rest : Fills template page) : Fills (none :: template) (t ++ page)

namespace Fills

theorem text (t : Text) : Fills [some t] t := by
  have h := fixed t nil
  rwa [List.append_nil] at h

theorem append {ts us : Template} {page page' : Text} (h : Fills ts page) (h' : Fills us page') :
    Fills (ts ++ us) (page ++ page') := by
  induction h with
  | nil => exact h'
  | fixed t _ ih =>
    rw [List.append_assoc]
    exact .fixed t ih
  | gap inert _ ih =>
    rw [List.append_assoc]
    exact .gap inert ih

/-- Lines that fill one template fill a template with as many copies of it as there are lines. -/
theorem flatMap {α : Type} {template : Template} {f : α → Text} (h : ∀ a, Fills template (f a))
    (l : List α) : Fills (List.replicate l.length template).flatten (l.flatMap f) := by
  induction l with
  | nil => exact .nil
  | cons a l ih => exact (h a).append ih

/-- **Markup.** The markup of a page is that of the fixed texts of its template. -/
theorem markup_eq {template : Template} {page : Text} (h : Fills template page) :
    markup page = template.flatMap fun part => markup (part.getD []) := by
  induction h with
  | nil => rfl
  | fixed t _ ih => rw [markup_append, ih, List.flatMap_cons, Option.getD_some]
  | gap inert _ ih => rw [markup_append, ih, inert.markup_eq, List.flatMap_cons]; rfl

/-- Two pages that fill one template have the same markup. -/
theorem markup_eq_markup {template : Template} {page page' : Text} (h : Fills template page)
    (h' : Fills template page') : markup page = markup page' :=
  h.markup_eq.trans h'.markup_eq.symm

end Fills

/-! ### Status pages -/

/-- The template of the body of a status page: gaps for the code, the reason and the note. -/
def statusBodyTemplate : Template :=
  [some ("\n            <h1>" : Text), none, some (" " : Text), none,
    some ("</h1>\n            <p>" : Text), none, some ("</p>\n            " : Text)]

/-- The template of status pages: a gap for the code in the title, and those of the body. -/
def statusTemplate : Template :=
  [some ("<!DOCTYPE html>
            <html>
                <head>
                    <meta charset=\"utf-8\">
                    <title>" : Text), none, some ("</title>
                    <style>" : Text), some statusStyle, some ("</style>
                </head>
                <body>
                " : Text)] ++ statusBodyTemplate ++ [some ("
                </body>
            </html>" : Text)]

theorem fills_statusBody (code : Nat) (note : Option Text) :
    Fills statusBodyTemplate (statusBody code note) := by
  have hnote : Inert ((note.map escape).getD (Http.reasonPhrase code)) := by
    cases note with
    | none => exact inert_of_tame (Http.tame_reasonPhrase code)
    | some t => exact inert_escape t
  have hreason := inert_of_tame (Http.tame_reasonPhrase code)
  unfold statusBody
  simp only [List.append_assoc]
  refine .fixed _ (.gap (inert_of_tame (tame_decimal code)) (.fixed _ ?_))
  exact .gap hreason (.fixed _ (.gap hnote (.text _)))

/-- A status page, whatever its code and its note, fills the template of status pages. -/
theorem fills_status (code : Nat) (note : Option Text) :
    Fills statusTemplate (status code note) := by
  unfold status
  simp only [List.append_assoc]
  refine .fixed _ (.gap (inert_of_tame (tame_decimal code)) (.fixed _ (.fixed _ (.fixed _ ?_))))
  exact (fills_statusBody code note).append (.text _)

/-! ### References, taken for their characters -/

/-- The characters that have a name in markup. -/
def namedCharacters : List (Text × Char) :=
  [("amp", '&'), ("lt", '<'), ("gt", '>'), ("quot", '"'), ("apos", '\'')]

/-- The character that a reference stands for, by what is between `&` and `;`: a name, or `#` and
the decimal numeral of a code point. -/
def character? : Text → Option Char
  | '#' :: digits => ((readDecimal? digits).filter fun n => n.isValidChar).map Char.ofNat
  | name => namedCharacters.lookup name

/-- The character of the reference at the front, after its `&`, and how long the rest of the
reference is. -/
def reference? (t : Text) : Option (Char × Nat) := do
  let (name, _) ← cut ';' t
  let c ← character? name
  return (c, name.length + 1)

/-- A text with its references taken for their characters, after `skipped` characters that belong to
a reference already read. -/
def unescapeAfter : (skipped : Nat) → Text → Text
  | _, [] => []
  | n + 1, _ :: r => unescapeAfter n r
  | 0, c :: r =>
    match if c = '&' then reference? r else none with
    | some (d, n) => d :: unescapeAfter n r
    | none => c :: unescapeAfter 0 r

/-- A text with the references in it taken for the characters that they stand for. An ampersand that
begins no reference stands for itself. -/
def unescape (t : Text) : Text := unescapeAfter 0 t

theorem unescapeAfter_append (skipped t : Text) :
    unescapeAfter skipped.length (skipped ++ t) = unescape t := by
  induction skipped with
  | nil => rfl
  | cons c skipped ih => exact ih

/-- A reference is taken for its character, apart from what follows it. -/
theorem unescape_reference (name : Text) {c : Char} (hname : ';' ∉ name)
    (hc : character? name = some c) (t : Text) :
    unescape ('&' :: (name ++ ';' :: t)) = c :: unescape t := by
  have href : reference? (name ++ ';' :: t) = some (c, (name ++ [';']).length) := by
    simp [reference?, cut_append_cons hname, hc]
  have hrest : name ++ ';' :: t = (name ++ [';']) ++ t := by simp
  rw [unescape, unescapeAfter, if_pos rfl, href]
  dsimp only
  rw [hrest, unescapeAfter_append]

/-- A character that is no ampersand stands for itself. -/
theorem unescape_cons {c : Char} (h : c ≠ '&') (t : Text) :
    unescape (c :: t) = c :: unescape t := by
  rw [unescape, unescapeAfter, if_neg h]
  rfl

/-- The escaped form of a character is taken for the character, apart from what follows it. -/
theorem unescape_escapeChar_append (c : Char) (t : Text) :
    unescape (escapeChar c ++ t) = c :: unescape t := by
  rw [escapeChar.eq_def]
  split
  · exact unescape_reference "amp" (by decide) (by decide) t
  · exact unescape_reference "lt" (by decide) (by decide) t
  · exact unescape_reference "gt" (by decide) (by decide) t
  · exact unescape_reference "quot" (by decide) (by decide) t
  · exact unescape_reference "#39" (by decide) (by decide) t
  · rename_i hampersand _ _ _ _
    exact unescape_cons hampersand t

/-- **Escaping is undone** by taking the references for their characters. -/
theorem unescape_escape (t : Text) : unescape (escape t) = t := by
  induction t with
  | nil => rfl
  | cons c t ih =>
    have hcons : escape (c :: t) = escapeChar c ++ escape t := rfl
    rw [hcons, unescape_escapeChar_append, ih]

end Webroot.Page
