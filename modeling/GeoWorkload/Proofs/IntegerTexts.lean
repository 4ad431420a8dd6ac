import GeoWorkload.Proofs.Decimals
import Mathlib.Data.List.TakeWhile

/-!
# Texts of integers

Which texts are read as integers, and as which ones, is a grammar (`IntegerText`): blanks around an optional sign and a
run of digits of any scripts, with single underscores between them (`DigitRun`).  The reader scans digits from the left;
it takes a run where a run stands (`DigitRun.scan`), and what it takes is one (`exists_digitRun`).  So it reads a text
exactly if the text follows the grammar (`readInteger_eq_ok_iff`).
-/

namespace GeoWorkload.Numeral

/-! ### Digits -/

/-- What holds of the ten digits after every zero holds of all digits. -/
theorem of_digitValue? {p : Char → Nat → Prop}
    (h : ∀ start ∈ Text.zeroDigits, ∀ i : Fin 10, p (Char.ofNat (start + i)) i) {c : Char} {d : Nat}
    (hc : Text.digitValue? c = some d) : p c d := by
  obtain ⟨start, hstart, rfl⟩ := Option.map_eq_some_iff.mp hc
  have hrange := List.find?_some hstart
  simp only [Bool.and_eq_true, decide_eq_true_eq] at hrange
  have hp := h start (List.mem_of_find?_eq_some hstart) ⟨c.toNat - start, by omega⟩
  dsimp only at hp
  rwa [show start + (c.toNat - start) = c.toNat by omega, Char.ofNat_toNat] at hp

/-- Digits are neither blanks nor any of the other characters of numerals. -/
theorem plain_of_digitValue? {c : Char} {d : Nat} (hc : Text.digitValue? c = some d) :
    Text.isNumeralBlank c = false ∧ c ≠ '_' ∧ c ≠ '+' ∧ c ≠ '-' :=
  of_digitValue? (p := fun c _ => Text.isNumeralBlank c = false ∧ c ≠ '_' ∧ c ≠ '+' ∧ c ≠ '-') (by decide +kernel) hc

/-! ### Runs of digits -/

/-- The characters are a run of digits of the values; single underscores may stand between them. -/
inductive DigitRun : List Char → List Nat → Prop
  | last {c : Char} {d : Nat} (hc : Text.digitValue? c = some d) : DigitRun [c] [d]
  | next {c : Char} {d : Nat} {s : List Char} {ds : List Nat} (hc : Text.digitValue? c = some d)
      (hs : DigitRun s ds) : DigitRun (c :: s) (d :: ds)
  | spaced {c : Char} {d : Nat} {s : List Char} {ds : List Nat} (hc : Text.digitValue? c = some d)
      (hs : DigitRun s ds) : DigitRun (c :: '_' :: s) (d :: ds)

/-- No run goes on at the start of the text. -/
def Stops (s : List Char) : Prop := ∀ c ∈ s.head?, Text.digitValue? c = none ∧ c ≠ '_'

theorem digitValue?_underscore : Text.digitValue? '_' = none := by decide

theorem scanDigits_digit {c : Char} {d : Nat} (hc : Text.digitValue? c = some d) (gap : Bool) (s : List Char) :
    scanDigits gap (c :: s) = (scanDigits false s).map fun (ds, rest) => (d :: ds, rest) := by
  rw [scanDigits, hc]

theorem scanDigits_underscore (s : List Char) : scanDigits false ('_' :: s) = scanDigits true s := by
  rw [scanDigits, digitValue?_underscore]
  simp

theorem scanDigits_stops {s : List Char} (h : Stops s) : scanDigits false s = some ([], s) := by
  cases s with
  | nil => rfl
  | cons c s =>
      obtain ⟨hdigit, hunderscore⟩ := h c rfl
      rw [scanDigits, hdigit]
      simp [hunderscore]

/-- A run is scanned up to its end. -/
theorem DigitRun.scan {s rest : List Char} {ds : List Nat} (h : DigitRun s ds) (hrest : Stops rest) (gap : Bool) :
    scanDigits gap (s ++ rest) = some (ds, rest) := by
  induction h generalizing gap with
  | last hc => rw [List.singleton_append, scanDigits_digit hc, scanDigits_stops hrest, Option.map_some]
  | next hc _ ih => rw [List.cons_append, scanDigits_digit hc, ih, Option.map_some]
  | spaced hc _ ih =>
      rw [List.cons_append, List.cons_append, scanDigits_digit hc, scanDigits_underscore, ih, Option.map_some]

/-- What is scanned is a run, unless nothing is, or an underscore and a run after a digit that came before. -/
theorem exists_digitRun_or {gap : Bool} {s rest : List Char} {ds : List Nat}
    (h : scanDigits gap s = some (ds, rest)) :
    (gap = false ∧ ds = [] ∧ rest = s) ∨ (∃ run, DigitRun run ds ∧ s = run ++ rest) ∨
      gap = false ∧ ∃ run, DigitRun run ds ∧ s = '_' :: (run ++ rest) := by
  fun_induction scanDigits gap s generalizing ds rest with
  | case1 => cases h
  | case2 gap hgap =>
      obtain ⟨rfl, rfl⟩ := Prod.mk.inj (Option.some.inj h)
      exact Or.inl ⟨by simpa using hgap, rfl, rfl⟩
  | case3 gap c s d hc ih =>
      obtain ⟨⟨ds', rest'⟩, hscan, heq⟩ := Option.map_eq_some_iff.mp h
      obtain ⟨rfl, rfl⟩ := Prod.mk.inj heq
      right; left
      obtain ⟨_, rfl, rfl⟩ | ⟨run, hrun, rfl⟩ | ⟨_, run, hrun, rfl⟩ := ih hscan
      · exact ⟨[c], .last hc, rfl⟩
      · exact ⟨c :: run, .next hc hrun, rfl⟩
      · exact ⟨c :: '_' :: run, .spaced hc hrun, rfl⟩
  | case4 => cases h
  | case5 gap s hgap hc ih =>
      obtain ⟨hfalse, _⟩ | ⟨run, hrun, rfl⟩ | ⟨hfalse, _⟩ := ih h
      · cases hfalse
      · exact Or.inr (Or.inr ⟨by simpa using hgap, run, hrun, rfl⟩)
      · cases hfalse
  | case6 gap c s hc hgap hne =>
      obtain ⟨rfl, rfl⟩ := Prod.mk.inj (Option.some.inj h)
      exact Or.inl ⟨by simpa using hgap, rfl, rfl⟩

theorem exists_digitRun {s rest : List Char} {ds : List Nat} (h : scanDigits true s = some (ds, rest)) :
    ∃ run, DigitRun run ds ∧ s = run ++ rest := by
  obtain ⟨hfalse, _⟩ | hrun | ⟨hfalse, _⟩ := exists_digitRun_or h
  · cases hfalse
  · exact hrun
  · cases hfalse

theorem DigitRun.head {s : List Char} {ds : List Nat} (h : DigitRun s ds) (rest : List Char) :
    ∃ c d, (s ++ rest).head? = some c ∧ Text.digitValue? c = some d := by
  cases h with
  | last hc => exact ⟨_, _, rfl, hc⟩
  | next hc _ => exact ⟨_, _, rfl, hc⟩
  | spaced hc _ => exact ⟨_, _, rfl, hc⟩

/-! ### Signs -/

/-- The characters are an optional sign, which is a minus or not. -/
inductive Sign : List Char → Bool → Prop
  | absent : Sign [] false
  | plus : Sign ['+'] false
  | minus : Sign ['-'] true

theorem exists_sign (s : List Char) : ∃ sign, Sign sign (splitSign s).1 ∧ s = sign ++ (splitSign s).2 := by
  unfold splitSign
  split
  · exact ⟨_, .minus, rfl⟩
  · exact ⟨_, .plus, rfl⟩
  · exact ⟨_, .absent, rfl⟩

theorem Sign.split {sign s : List Char} {negative : Bool} (h : Sign sign negative)
    (hs : ∀ c ∈ s.head?, c ≠ '+' ∧ c ≠ '-') : splitSign (sign ++ s) = (negative, s) := by
  cases h with
  | absent =>
      rw [List.nil_append]
      unfold splitSign
      split
      · exact absurd rfl (hs '-' rfl).2
      · exact absurd rfl (hs '+' rfl).1
      · rfl
  | plus => rfl
  | minus => rfl

/-! ### Integers -/

/-- The number with a sign. -/
def signed (negative : Bool) (n : Nat) : Int := if negative then -n else n

/-- The characters write the integer. -/
inductive IntegerText : List Char → Int → Prop
  | parts {lead sign run trail : List Char} {negative : Bool} {ds : List Nat}
      (hlead : ∀ c ∈ lead, Text.isNumeralBlank c = true) (hsign : Sign sign negative) (hrun : DigitRun run ds)
      (hlength : ds.length ≤ maxDigits) (htrail : ∀ c ∈ trail, Text.isNumeralBlank c = true) :
      IntegerText (lead ++ (sign ++ (run ++ trail))) (signed negative (ofDigits ds))

theorem stops_blanks {s : List Char} (h : ∀ c ∈ s, Text.isNumeralBlank c = true) : Stops s := by
  intro c hc
  have hblank := h c (List.mem_of_mem_head? hc)
  constructor
  · cases hd : Text.digitValue? c with
    | none => rfl
    | some d => simp [(plain_of_digitValue? hd).1] at hblank
  · rintro rfl
    simp [show Text.isNumeralBlank '_' = false by decide] at hblank

theorem readInteger_of_integerText {text : String} {z : Int} (h : IntegerText text.toList z) :
    readInteger text = .ok z := by
  generalize hs : text.toList = s at h
  obtain ⟨hlead, hsign, hrun, hlength, htrail⟩ := h
  rename_i lead sign run trail negative ds
  obtain ⟨c, d, hhead, hc⟩ := hrun.head trail
  obtain ⟨hblank, _, hplus, hminus⟩ := plain_of_digitValue? hc
  have hsplit : splitSign (sign ++ (run ++ trail)) = (negative, run ++ trail) := by
    apply hsign.split
    intro c' hc'
    obtain rfl : c = c' := by simpa [hhead] using hc'
    exact ⟨hplus, hminus⟩
  have hdrop : (sign ++ (run ++ trail)).dropWhile Text.isNumeralBlank = sign ++ (run ++ trail) := by
    cases hsign with
    | absent =>
        obtain ⟨s', hs'⟩ := List.head?_eq_some_iff.mp hhead
        rw [List.nil_append, hs', List.dropWhile_cons_of_neg (by simp [hblank])]
    | plus => rfl
    | minus => rfl
  unfold readInteger
  rw [hs, List.dropWhile_append_of_pos hlead, hdrop, hsplit]
  dsimp only
  rw [hrun.scan (stops_blanks htrail)]
  dsimp only
  rw [if_neg (by omega), if_pos (List.all_eq_true.mpr htrail)]
  rfl

theorem integerText_of_readInteger {text : String} {z : Int} (h : readInteger text = .ok z) :
    IntegerText text.toList z := by
  have hlead : ∀ c ∈ text.toList.takeWhile Text.isNumeralBlank, Text.isNumeralBlank c = true :=
    fun c hc => List.mem_takeWhile_imp hc
  have htext := List.takeWhile_append_dropWhile (p := Text.isNumeralBlank) (l := text.toList)
  rw [← htext]
  obtain ⟨sign, hsign, hsplit⟩ := exists_sign (text.toList.dropWhile Text.isNumeralBlank)
  unfold readInteger at h
  dsimp only at h
  split at h
  · cases h
  · rename_i ds rest hscan
    split at h
    · cases h
    · rename_i hlength
      split at h
      · rename_i htrail
        obtain ⟨run, hrun, hrest⟩ := exists_digitRun hscan
        obtain rfl := Except.ok.inj h
        rw [hrest] at hsplit
        rw [hsplit] at hsign ⊢
        exact .parts hlead hsign hrun (by omega) (List.all_eq_true.mp htrail)
      · cases h

/-- A text is read as an integer exactly if it follows the grammar. -/
theorem readInteger_eq_ok_iff {text : String} {z : Int} :
    readInteger text = .ok z ↔ IntegerText text.toList z :=
  ⟨integerText_of_readInteger, readInteger_of_integerText⟩

end GeoWorkload.Numeral
