import Webroot.Mount.StaticFile
import Webroot.Proofs.Http.EntityTag
import Webroot.Proofs.Time.HttpDate
import Webroot.Proofs.Url.RoundTrip

/-!
# Texts that are made here

Numerals, dates, reason phrases, media types and the written forms of paths are made by this
library, whatever a client sends. They are **tame**: nothing in them but visible ASCII characters
and spaces, and none that has a meaning in markup. So they can stand in a header field and in a page
as they are: a tame text has no line end in it and neither an angle bracket nor a quotation mark.

This is proved once for each kind of text, and what one place or another needs is read off
(`Tame.not_mem`).
-/

namespace Webroot

open Http

namespace Text

/-- Whether a character is a space or visible, in ASCII, and without a meaning in markup. -/
def isTame (c : Char) : Bool :=
  32 ≤ c.toNat && c.toNat < 127 && !(("\"&<>" : Text).contains c)

/-- A text is **tame** when all of its characters are. -/
def Tame (t : Text) : Prop := ∀ c ∈ t, isTame c = true

instance (t : Text) : Decidable (Tame t) := List.decidableBAll _ t

/-- A tame text holds no character that is not tame. -/
theorem Tame.not_mem {t : Text} (h : Tame t) {c : Char} (hc : isTame c = false) : c ∉ t :=
  fun hmem => Bool.false_ne_true (hc.symm.trans (h c hmem))

theorem tame_append {s t : Text} : Tame (s ++ t) ↔ Tame s ∧ Tame t := List.forall_mem_append

theorem tame_cons {c : Char} {t : Text} : Tame (c :: t) ↔ isTame c = true ∧ Tame t :=
  List.forall_mem_cons

/-- What a table of tame texts gives is tame. -/
theorem tame_of_lookup_eq_some {α : Type} [BEq α] [LawfulBEq α] {table : List (α × Text)}
    (h : ∀ entry ∈ table, Tame entry.2) {key : α} {t : Text} (ht : table.lookup key = some t) :
    Tame t := by
  obtain ⟨before, after, heq, -⟩ := List.lookup_eq_some_iff.mp ht
  exact h (key, t) (by rw [heq]; simp)

/-- A text is **of one line** when there is no character of a line end in it. -/
def OneLine (t : Text) : Prop := '\r' ∉ t ∧ '\n' ∉ t

instance (t : Text) : Decidable (OneLine t) := inferInstanceAs (Decidable (_ ∧ _))

theorem Tame.oneLine {t : Text} (h : Tame t) : OneLine t := ⟨h.not_mem rfl, h.not_mem rfl⟩

theorem oneLine_append {s t : Text} : OneLine (s ++ t) ↔ OneLine s ∧ OneLine t := by
  simp only [OneLine, List.mem_append, not_or]
  exact and_and_and_comm

/-! ### Numerals -/

theorem isTame_of_isDigit {c : Char} (h : c.isDigit = true) : isTame c = true := by
  have hrange : 48 ≤ c.toNat ∧ c.toNat ≤ 57 := by
    simpa [Char.isDigit, UInt32.le_iff_toNat_le] using h
  have hne : ∀ d : Char, d.toNat < 48 ∨ 57 < d.toNat → c ≠ d := by
    rintro d hd rfl
    omega
  simp [isTame, hne]
  omega

theorem tame_decimal (n : Nat) : Tame (decimal n) :=
  fun _ hc => isTame_of_isDigit (Nat.isDigit_of_mem_toDigits (by decide) (by decide) hc)

theorem tame_decimalWide (w n : Nat) : Tame (decimalWide w n) :=
  fun _ hc => isTame_of_isDigit (HttpDate.isDigit_of_mem_decimalWide hc)

theorem tame_hex (n : Nat) : Tame (hex n) := by
  have hall : Tame hexDigits := by decide
  exact fun c hc => hall c (mem_digits_of_mem_hex hc)

end Text

open Text

/-! ### Paths -/

/-- The written form of a path is tame. -/
theorem Url.tame_escapePath (t : Text) : Tame (escapePath t) := by
  have hall : ∀ n < 256, Tame (escapeOctet (UInt8.ofNat n)) := by decide +kernel
  intro c hc
  obtain ⟨b, -, hb⟩ := List.mem_flatMap.mp hc
  rw [← UInt8.ofNat_toNat (x := b)] at hb
  exact hall b.toNat b.toNat_lt c hb

/-! ### Dates -/

namespace HttpDate

theorem tame_year (y : Int) : Tame (year y) := by
  have hdigits := tame_decimalWide 4 y.natAbs
  rw [year]
  split_ifs
  · exact tame_cons.mpr ⟨rfl, hdigits⟩
  · exact hdigits
  · exact tame_cons.mpr ⟨rfl, hdigits⟩

theorem tame_clock (c : Clock) : Tame (clock c) := by
  simp +decide only [clock, tame_append, tame_decimalWide]

theorem tame_brief (s : Int) : Tame (brief s) := by
  simp +decide only [brief, tame_append, tame_year, tame_decimalWide]

theorem tame_format (s : Int) : Tame (format s) := by
  have hday : ∀ w < 7, Tame (shortDay w) := by decide
  have hmonth : ∀ m ≤ 12, Tame (shortMonth m) := by decide
  have hw : Date.weekday (s / 86400) < 7 := weekday_lt _
  obtain ⟨-, hm, -⟩ := Date.ofDays_bounds (s / 86400)
  simp +decide only [format, tame_append, hday _ hw, Instant.date, hmonth _ hm,
    tame_decimalWide, tame_year, tame_clock]

end HttpDate

/-! ### Statuses, types and ranges -/

namespace Http

theorem tame_reasonPhrase (code : Nat) : Tame (reasonPhrase code) := by
  have hall : ∀ p ∈ statusPhrases, Tame p.2 := by decide
  rw [reasonPhrase]
  cases hphrase : statusPhrases.lookup code with
  | none => decide
  | some phrase => exact tame_of_lookup_eq_some hall hphrase

theorem tame_mediaType (name : Text) : Tame (mediaType name) := by
  have hall : ∀ p ∈ mediaTypes, Tame p.2 := by decide
  rw [mediaType]
  cases hfound : (suffixes name).findSome? fun s => mediaTypes.lookup s with
  | none => decide
  | some mime =>
    obtain ⟨s, -, hlookup⟩ := List.exists_of_findSome?_eq_some hfound
    exact tame_of_lookup_eq_some hall hlookup

theorem Span.tame_contentRange (span : Span) (size : Nat) : Tame (span.contentRange size) := by
  unfold Span.contentRange
  simp +decide only [tame_append, tame_decimal]

/-- What stands between the quotes of a tag is tame. -/
theorem tame_tagText (serial size : Nat) (changed : Int) : Tame (tagText serial size changed) := by
  simp +decide only [tagText, hexWord, tame_append, tame_cons, tame_hex]

end Http

theorem Setting.tame_boundary (s : Setting) : Tame s.boundary := by
  simp +decide only [boundary, tame_append, tame_decimal]

end Webroot
