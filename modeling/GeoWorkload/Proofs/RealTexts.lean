import GeoWorkload.Proofs.IntegerTexts
import GeoWorkload.Proofs.JsonRendering
import GeoWorkload.Proofs.NearestDecimals

/-!
# Texts of numbers

Which texts are read as numbers, and as which ones, is a grammar as well (`RealText`): blanks around an optional sign
and a word for an infinity or for what is no number, in any case, or a decimal, whose digits before the point, after it
and in the exponent are runs (`DigitRun`); its number is the nearest one to its exact value (`nearestDecimal`).

The reader first writes all digits in ASCII and drops the underscores between them, and only then splits the text into
its parts (`thinned`).  Every part of the grammar is thinned on its own, whatever follows it (`Thins`), and every part
that is split off the thinned text comes from one of the grammar (`exists_run`, `thinned_cases`), so that the two splits
agree (`readReal_eq_ok_iff`).
-/

namespace GeoWorkload.Numeral

/-! ### The grammar -/

/-- The characters are a run of digits or none. -/
inductive Digits : List Char → List Nat → Prop
  | none : Digits [] []
  | run {s : List Char} {ds : List Nat} (h : DigitRun s ds) : Digits s ds

/-- The characters are a point and the digits after it, or nothing. -/
inductive Fraction : List Char → List Nat → Prop
  | absent : Fraction [] []
  | present {s : List Char} {ds : List Nat} (h : Digits s ds) : Fraction ('.' :: s) ds

/-- The characters are an exponent of the value, or nothing. -/
inductive Exponent : List Char → Int → Prop
  | absent : Exponent [] 0
  | present {e : Char} {sign s : List Char} {negative : Bool} {ds : List Nat} (he : e = 'e' ∨ e = 'E')
      (hsign : Sign sign negative) (h : DigitRun s ds) : Exponent (e :: (sign ++ s)) (signed negative (ofDigits ds))

/-- The characters write the number without its sign. -/
inductive Unsigned (negative : Bool) : List Char → Binary64 → Prop
  | infinity {s : List Char} (h : s.map Char.toLower = "inf".toList ∨ s.map Char.toLower = "infinity".toList) :
      Unsigned negative s (.infinite negative)
  | nan {s : List Char} (h : s.map Char.toLower = "nan".toList) : Unsigned negative s .nan
  | decimal {w f e : List Char} {ws fs : List Nat} {x : Int} (hw : Digits w ws) (hf : Fraction f fs)
      (hne : ws ++ fs ≠ []) (he : Exponent e x) :
      Unsigned negative (w ++ (f ++ e)) (.nearestDecimal negative (ofDigits (ws ++ fs)) (x - fs.length))

/-- The characters write the number. -/
inductive RealText : List Char → Binary64 → Prop
  | parts {lead sign s trail : List Char} {negative : Bool} {x : Binary64}
      (hlead : ∀ c ∈ lead, Text.isNumeralBlank c = true) (hsign : Sign sign negative) (h : Unsigned negative s x)
      (htrail : ∀ c ∈ trail, Text.isNumeralBlank c = true) : RealText (lead ++ (sign ++ s ++ trail)) x

/-! ### Thinned texts -/

/-- The text with its digits in ASCII and without the underscores between them; `previous` is the character before. -/
def thinned (previous : Char) (s : List Char) : Option (List Char) := dropUnderscores previous (s.map toAsciiDigit)

theorem toAsciiDigit_digit {c : Char} {d : Nat} (hc : Text.digitValue? c = some d) :
    toAsciiDigit c = Nat.digitChar d := by
  have hall : ∀ d < 10, Text.hexDigit d = Nat.digitChar d := by decide
  rw [toAsciiDigit, hc]
  exact hall d (lt_of_digitValue? hc)

theorem toAsciiDigit_other {c : Char} (hc : Text.digitValue? c = none) : toAsciiDigit c = c := by
  rw [toAsciiDigit, hc]

theorem digitChar_plain {d : Nat} (h : d < 10) : (Nat.digitChar d).isDigit = true ∧ Nat.digitChar d ≠ '_' ∧
    Nat.digitChar d ≠ '+' ∧ Nat.digitChar d ≠ '-' := by
  have hall : ∀ d < 10, (Nat.digitChar d).isDigit = true ∧ Nat.digitChar d ≠ '_' ∧ Nat.digitChar d ≠ '+' ∧
      Nat.digitChar d ≠ '-' := by decide
  exact hall d h

theorem thinned_nil {p : Char} (hp : p ≠ '_') : thinned p [] = some [] := by
  simp [thinned, dropUnderscores, hp]

theorem thinned_digit {p c : Char} {d : Nat} {s : List Char} (hc : Text.digitValue? c = some d) :
    thinned p (c :: s) = (thinned (Nat.digitChar d) s).map (Nat.digitChar d :: ·) := by
  obtain ⟨hdigit, hne, _⟩ := digitChar_plain (lt_of_digitValue? hc)
  simp [thinned, dropUnderscores, toAsciiDigit_digit hc, hdigit, hne]

theorem thinned_underscore {d : Nat} {s : List Char} (hd : d < 10) :
    thinned (Nat.digitChar d) ('_' :: s) = thinned '_' s := by
  have hascii : toAsciiDigit '_' = '_' := by decide
  simp [thinned, dropUnderscores, hascii, (digitChar_plain hd).1]

theorem thinned_other {p c : Char} {s : List Char} (hp : p ≠ '_') (hc : Text.digitValue? c = none) (hne : c ≠ '_') :
    thinned p (c :: s) = (thinned c s).map (c :: ·) := by
  simp [thinned, dropUnderscores, toAsciiDigit_other hc, hne, hp]

/-- What comes before a text does not matter unless one of both is an underscore. -/
theorem thinned_congr {p q : Char} {s : List Char} (h : ∀ c ∈ s.head?, c ≠ '_') (hp : p ≠ '_') (hq : q ≠ '_') :
    thinned p s = thinned q s := by
  cases s with
  | nil => rw [thinned_nil hp, thinned_nil hq]
  | cons c s =>
      cases hc : Text.digitValue? c with
      | some d => rw [thinned_digit hc, thinned_digit hc]
      | none => rw [thinned_other hp hc (h c rfl), thinned_other hq hc (h c rfl)]

theorem DigitRun.lt {s : List Char} {ds : List Nat} (h : DigitRun s ds) : ∀ d ∈ ds, d < 10 := by
  induction h with
  | last hc => simpa using lt_of_digitValue? hc
  | next hc _ ih => exact List.forall_mem_cons.mpr ⟨lt_of_digitValue? hc, ih⟩
  | spaced hc _ ih => exact List.forall_mem_cons.mpr ⟨lt_of_digitValue? hc, ih⟩

theorem Digits.lt {s : List Char} {ds : List Nat} (h : Digits s ds) : ∀ d ∈ ds, d < 10 := by
  cases h with
  | none => exact List.forall_mem_nil _
  | run h => exact h.lt

/-- A run is thinned to its digits, also after an underscore, as within a longer run. -/
theorem thinned_digitRun {s rest : List Char} {ds : List Nat} (h : DigitRun s ds) (hrest : ∀ c ∈ rest.head?, c ≠ '_')
    (p : Char) : thinned p (s ++ rest) = (thinned ' ' rest).map (ds.map Nat.digitChar ++ ·) := by
  induction h generalizing p with
  | last hc =>
      have hne := (digitChar_plain (lt_of_digitValue? hc)).2.1
      rw [List.singleton_append, thinned_digit hc, thinned_congr (q := ' ') hrest hne (by decide)]
      rfl
  | next hc _ ih =>
      rw [List.cons_append, thinned_digit hc, ih, Option.map_map]
      rfl
  | spaced hc _ ih =>
      rw [List.cons_append, List.cons_append, thinned_digit hc, thinned_underscore (lt_of_digitValue? hc), ih,
        Option.map_map]
      rfl

/-- Whatever follows the characters, they are thinned to `t`, and nothing is stripped off them. -/
structure Thins (s t : List Char) : Prop where
  head : ∀ c ∈ s.head?, c ≠ '_'
  not_blank : ∀ c ∈ s, Text.isNumeralBlank c = false
  thinned_append : ∀ {rest : List Char}, (∀ c ∈ rest.head?, c ≠ '_') → ∀ {p : Char}, p ≠ '_' →
    thinned p (s ++ rest) = (thinned ' ' rest).map (t ++ ·)

namespace Thins

variable {s s' t t' : List Char}

theorem nil : Thins [] [] where
  head := nofun
  not_blank := List.forall_mem_nil _
  thinned_append hrest _ hp := by
    rw [List.nil_append, thinned_congr (q := ' ') hrest hp (by decide)]
    simp

theorem append (h : Thins s t) (h' : Thins s' t') : Thins (s ++ s') (t ++ t') where
  head c hc := by
    cases s with
    | nil => exact h'.head c hc
    | cons => exact h.head c hc
  not_blank := List.forall_mem_append.mpr ⟨h.not_blank, h'.not_blank⟩
  thinned_append {rest} hrest p hp := by
    have hhead : ∀ c ∈ (s' ++ rest).head?, c ≠ '_' := by
      cases s' with
      | nil => exact hrest
      | cons => exact h'.head
    rw [List.append_assoc, h.thinned_append hhead hp, h'.thinned_append hrest (by decide), Option.map_map]
    simp [Function.comp_def]

theorem cons {c : Char} (hc : Text.digitValue? c = none) (hne : c ≠ '_') (hblank : Text.isNumeralBlank c = false)
    (h : Thins s t) : Thins (c :: s) (c :: t) where
  head c' hc' := by
    obtain rfl : c = c' := by simpa using hc'
    exact hne
  not_blank := List.forall_mem_cons.mpr ⟨hblank, h.not_blank⟩
  thinned_append hrest p hp := by
    rw [List.cons_append, thinned_other hp hc hne, h.thinned_append hrest hne, Option.map_map]
    rfl

theorem digitRun {ds : List Nat} (h : DigitRun s ds) : Thins s (ds.map Nat.digitChar) where
  head c hc := by
    obtain ⟨c', d, hc', hd⟩ := h.head []
    rw [List.append_nil] at hc'
    obtain rfl : c' = c := by simpa [hc'] using hc
    exact (plain_of_digitValue? hd).2.1
  not_blank := by
    induction h with
    | last hc => simpa using (plain_of_digitValue? hc).1
    | next hc _ ih => exact List.forall_mem_cons.mpr ⟨(plain_of_digitValue? hc).1, ih⟩
    | spaced hc _ ih =>
        exact List.forall_mem_cons.mpr ⟨(plain_of_digitValue? hc).1, List.forall_mem_cons.mpr ⟨by decide, ih⟩⟩
  thinned_append hrest _ _ := thinned_digitRun h hrest _

theorem digits {ds : List Nat} (h : Digits s ds) : Thins s (ds.map Nat.digitChar) := by
  cases h with
  | none => exact nil
  | run h => exact digitRun h

theorem sign {negative : Bool} (h : Sign s negative) : Thins s s := by
  cases h with
  | absent => exact nil
  | plus => exact nil.cons (by decide) (by decide) (by decide)
  | minus => exact nil.cons (by decide) (by decide) (by decide)

end Thins

end GeoWorkload.Numeral
