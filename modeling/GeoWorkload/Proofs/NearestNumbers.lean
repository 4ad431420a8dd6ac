import GeoWorkload.Proofs.UnitDraws
import Mathlib.Data.Rat.Floor

/-!
# Nearest numbers

A binary64 number is the nearest one to a quotient if the quotient is rounded to it (`Rounds`), as the exact sum of
two finite numbers is to their sum (`rounds_add`).  Rounding keeps the side on which a quotient lies of a number of
53 bits (`Rounds.le_toRat`, `Rounds.toRat_le`) and goes up by no more than its share of `2^-53` (`Rounds.toRat_le_mul`).
Whole parts are floors (`floor?_eq_some`), or toward zero the floor or the ceiling (`truncate?_eq_some`).
-/

namespace GeoWorkload.Binary64

/-- The number is the nearest one to a quotient that is not negative. -/
def Rounds (q : ℚ) (x : Binary64) : Prop :=
  ∃ n d : Nat, 0 < d ∧ q = n / d ∧ x = ofRatio false n d

/-! ### Values -/

/-- In units that are smaller than its own, a quotient is rounded to `2^53` at least. -/
theorem two_pow_le_rounded_mul {n d : Nat} (hn : 0 < n) (hd : 0 < d) {e : Int} (he : -1074 ≤ e)
    (hlt : e < lastPlace n d) : 2 ^ 53 * (2 : ℚ) ^ e ≤ rounded n d * 2 ^ lastPlace n d := by
  have hfull := lastPlace_le hn hd (by omega)
  have hcount : 2 ^ 52 ≤ rounded n d := by
    apply le_rounded hd
    rw [zpow_add₀ (by norm_num), mul_comm] at hfull
    exact_mod_cast hfull
  calc 2 ^ 53 * (2 : ℚ) ^ e = 2 ^ 52 * 2 ^ (e + 1) := by
        rw [zpow_add₀ (by norm_num)]
        ring
    _ ≤ 2 ^ 52 * 2 ^ lastPlace n d :=
        mul_le_mul_of_nonneg_left (zpow_le_zpow_right₀ (by norm_num) (by omega)) (by norm_num)
    _ ≤ rounded n d * 2 ^ lastPlace n d :=
        mul_le_mul_of_nonneg_right (by exact_mod_cast hcount) (two_zpow_pos _).le

/-- A quotient of at least so many units of any size is rounded to no fewer. -/
theorem le_rounded_mul {n d k : Nat} (hn : 0 < n) (hd : 0 < d) (hk : k ≤ 2 ^ 53) {e : Int} (he : -1074 ≤ e)
    (h : (k : ℚ) * 2 ^ e ≤ (n : ℚ) / d) : (k : ℚ) * 2 ^ e ≤ rounded n d * 2 ^ lastPlace n d := by
  rcases le_or_gt (lastPlace n d) e with hle | hlt
  · -- the units are so many of the last place
    have hunits : ((k * 2 ^ (e - lastPlace n d).toNat : Nat) : ℚ) * 2 ^ lastPlace n d = k * 2 ^ e := by
      push_cast
      rw [← zpow_natCast, mul_assoc, ← zpow_add₀ (by norm_num)]
      congr 2
      omega
    rw [← hunits] at h ⊢
    have hcount := le_rounded hd h
    exact mul_le_mul_of_nonneg_right (by exact_mod_cast hcount) (two_zpow_pos _).le
  · have hk' : (k : ℚ) ≤ 2 ^ 53 := by exact_mod_cast hk
    exact (mul_le_mul_of_nonneg_right hk' (two_zpow_pos e).le).trans (two_pow_le_rounded_mul hn hd he hlt)

/-- Rounding to integers goes up from half an integer above an odd one. -/
theorem lt_roundHalfEven {n d k : Nat} (hd : 0 < d) (hk : k % 2 = 1) (h : (2 * k + 1) * d ≤ 2 * n) :
    k < roundHalfEven n d := by
  have hsplit := Nat.div_add_mod n d
  have hrest := Nat.mod_lt n hd
  have hwhole : k ≤ n / d := (Nat.le_div_iff_mul_le hd).mpr (by nlinarith)
  rcases Nat.eq_or_lt_of_le hwhole with heq | hlt
  · -- the rest is half the divisor at least, and the whole part is odd
    rw [← heq] at hsplit
    have hhalf : d ≤ 2 * (n % d) := by nlinarith
    unfold roundHalfEven
    dsimp only
    rw [← heq, if_neg (by omega)]
    split <;> omega
  · exact lt_of_lt_of_le hlt (whole_le_roundHalfEven n d)

/-- A quotient that lies half a unit or more above an odd number of 53 bits is rounded beyond that number. -/
theorem succ_le_rounded_mul {n d k : Nat} (hn : 0 < n) (hd : 0 < d) (hlow : 2 ^ 52 ≤ k) (hhigh : k < 2 ^ 53)
    (hodd : k % 2 = 1) {e : Int} (he : -1074 ≤ e) (h : (k + 1 / 2) * 2 ^ e ≤ (n : ℚ) / d) :
    ((k : ℚ) + 1) * 2 ^ e ≤ rounded n d * 2 ^ lastPlace n d := by
  have hpos := two_zpow_pos e
  have hlow' : (2 : ℚ) ^ 52 ≤ k := by exact_mod_cast hlow
  have hhigh' : (k : ℚ) + 1 ≤ 2 ^ 53 := by exact_mod_cast hhigh
  rcases lt_trichotomy (lastPlace n d) e with hlt | heq | hgt
  · -- a smaller unit: 2^53 of these are not more than the 2^52 of the other kind
    have hless := lt_lastPlace hn hd
    have hunit : (2 : ℚ) ^ (lastPlace n d + 53) ≤ 2 ^ (52 + e) := zpow_le_zpow_right₀ (by norm_num) (by omega)
    rw [zpow_add₀ (by norm_num) 52 e] at hunit
    norm_num at hunit hless
    nlinarith
  · rw [heq, ← Nat.cast_add_one]
    rw [← inUnits_div n d e] at h
    have hunits := le_of_mul_le_mul_right h hpos
    rw [le_div_iff₀ (by exact_mod_cast inUnits_pos (n := n) hd e)] at hunits
    have hcount : (2 * k + 1) * (inUnits n d e).2 ≤ 2 * (inUnits n d e).1 := by
      have : (2 * k + 1 : ℚ) * (inUnits n d e).2 ≤ 2 * (inUnits n d e).1 := by linarith
      exact_mod_cast this
    have hless := lt_roundHalfEven (inUnits_pos hd e) hodd hcount
    rw [← heq] at hless
    exact mul_le_mul_of_nonneg_right (by exact_mod_cast hless) hpos.le
  · exact (mul_le_mul_of_nonneg_right hhigh' hpos.le).trans (two_pow_le_rounded_mul hn hd he hgt)

/-- Far below the greatest number rounding gives a finite one, of the value that the quotient is rounded to. -/
theorem exists_ofRatio {n d : Nat} (hn : 0 < n) (hd : 0 < d) (h : (n : ℚ) / d ≤ 2 ^ (971 : Int)) :
    ∃ m e canonical, ofRatio false n d = .finite false m e canonical ∧
      (ofRatio false n d).toRat = rounded n d * 2 ^ lastPlace n d := by
  have hbelow : (n : ℚ) / d < (2 ^ 53 - 1 / 2) * 2 ^ (971 : Int) := by
    have hpos := two_zpow_pos 971
    generalize (2 : ℚ) ^ (971 : Int) = greatest at h hpos ⊢
    linarith
  have hfinite := isFinite_ofRatio false hn hd hbelow
  rcases ofRatio_cases false hn d with ⟨m, e, canonical, heq, hvalue⟩ | hinfinite
  · refine ⟨m, e, canonical, heq, ?_⟩
    rw [heq, toRat_finite, ← hvalue]
    simp
  · simp [hinfinite, isFinite] at hfinite

/-- All numbers of 53 bits lie far below the greatest one. -/
theorem le_greatest_of_le {q : ℚ} (h : q ≤ 2 ^ 53) : q ≤ 2 ^ (971 : Int) := by
  have hpow : (2 : ℚ) ^ (53 : Int) ≤ 2 ^ (971 : Int) := zpow_le_zpow_right₀ (by norm_num) (by norm_num)
  exact h.trans (by exact_mod_cast hpow)

theorem toRat_zero (negative : Bool) : (zero negative).toRat = 0 := by
  simp [zero, toRat_finite]

namespace Rounds

variable {q : ℚ} {x : Binary64} (h : Rounds q x)
include h

/-- Rounding gives zero, or a finite number of the value that a positive quotient is rounded to. -/
theorem cases (hq : q ≤ 2 ^ (971 : Int)) : (q = 0 ∧ x = zero false) ∨
    ∃ n d : Nat, 0 < n ∧ 0 < d ∧ q = n / d ∧ x.toRat = rounded n d * 2 ^ lastPlace n d ∧
      ∃ m e canonical, x = .finite false m e canonical := by
  obtain ⟨n, d, hd, rfl, rfl⟩ := h
  rcases Nat.eq_zero_or_pos n with rfl | hn
  · left
    simp [ofRatio]
  · obtain ⟨m, e, canonical, heq, hvalue⟩ := exists_ofRatio hn hd hq
    exact Or.inr ⟨n, d, hn, hd, rfl, hvalue, m, e, canonical, heq⟩

theorem exists_finite (hq : q ≤ 2 ^ (971 : Int)) : ∃ m e canonical, x = .finite false m e canonical := by
  rcases h.cases hq with ⟨_, rfl⟩ | ⟨_, _, _, _, _, _, hx⟩
  · exact ⟨0, -1074, _, rfl⟩
  · exact hx

/-- What lies at or above a number of at most 53 bits is not rounded below it. -/
theorem le_toRat (hq : q ≤ 2 ^ (971 : Int)) {k : Nat} (hk : k ≤ 2 ^ 53) {e : Int} (he : -1074 ≤ e)
    (hle : (k : ℚ) * 2 ^ e ≤ q) : (k : ℚ) * 2 ^ e ≤ x.toRat := by
  rcases h.cases hq with ⟨rfl, rfl⟩ | ⟨n, d, hn, hd, rfl, hvalue, _⟩
  · rwa [toRat_zero]
  · rw [hvalue]
    exact le_rounded_mul hn hd hk he hle

/-- What lies less than half a unit above a number of 53 bits is not rounded beyond it. -/
theorem toRat_le (hq : q ≤ 2 ^ (971 : Int)) {k : Nat} {e : Int} (hlow : 2 ^ 52 ≤ k) (hhigh : k < 2 ^ 53)
    (he : -1074 ≤ e) (hlt : q < (k + 1 / 2) * 2 ^ e) : x.toRat ≤ k * 2 ^ e := by
  rcases h.cases hq with ⟨rfl, rfl⟩ | ⟨n, d, hn, hd, rfl, hvalue, _⟩
  · rw [toRat_zero]
    have := two_zpow_pos e
    positivity
  · rw [hvalue]
    exact rounded_le_of_lt hn hd hlow hhigh he hlt

/-- What lies half a unit or more above an odd number of 53 bits is rounded beyond it. -/
theorem succ_le_toRat (hq : q ≤ 2 ^ (971 : Int)) {k : Nat} {e : Int} (hlow : 2 ^ 52 ≤ k) (hhigh : k < 2 ^ 53)
    (hodd : k % 2 = 1) (he : -1074 ≤ e) (hle : (k + 1 / 2) * 2 ^ e ≤ q) : ((k : ℚ) + 1) * 2 ^ e ≤ x.toRat := by
  rcases h.cases hq with ⟨rfl, rfl⟩ | ⟨n, d, hn, hd, rfl, hvalue, _⟩
  · have := two_zpow_pos e
    have : (0 : ℚ) < (k + 1 / 2) * 2 ^ e := by positivity
    linarith
  · rw [hvalue]
    exact succ_le_rounded_mul hn hd hlow hhigh hodd he hle

/-- Above the numbers of fewer bits, rounding adds half a unit at most, a share of `2^-53`. -/
theorem toRat_le_mul (hq : q ≤ 2 ^ (971 : Int)) (hlow : q = 0 ∨ 2 ^ (-1022 : Int) ≤ q) :
    x.toRat ≤ q * (1 + 2 ^ (-53 : Int)) := by
  rcases h.cases hq with ⟨rfl, rfl⟩ | ⟨n, d, hn, hd, rfl, hvalue, _⟩
  · simp [toRat_zero]
  · have hpos : (0 : ℚ) < (n : ℚ) / d := by positivity
    have hhalf := rounded_le_add_half (n := n) hd
    have hunit : (2 : ℚ) ^ (lastPlace n d + 52) ≤ (n : ℚ) / d := by
      by_cases hleast : lastPlace n d = -1074
      · rw [hleast]
        exact hlow.resolve_left hpos.ne'
      · exact lastPlace_le hn hd hleast
    have hshare : (1 / 2 : ℚ) * 2 ^ lastPlace n d = 2 ^ (lastPlace n d + 52) * 2 ^ (-53 : Int) := by
      rw [← zpow_add₀ (by norm_num), show lastPlace n d + 52 + -53 = lastPlace n d + -1 by omega,
        zpow_add₀ (by norm_num)]
      norm_num
      ring
    have := mul_le_mul_of_nonneg_right hunit (two_zpow_pos (-53)).le
    rw [hvalue]
    linarith

end Rounds

/-- The quotient of naturals is the nearest number to the exact one, far below the greatest number. -/
theorem exists_ratio {n d : Nat} (hd : 0 < d) (h : (n : ℚ) / d ≤ 2 ^ (971 : Int)) :
    ∃ m e canonical, ratio n d = .ok (.finite false m e canonical) ∧
      Rounds (n / d) (.finite false m e canonical) := by
  have hrounds : Rounds (n / d) (ofRatio false n d) := ⟨n, d, hd, rfl, rfl⟩
  obtain ⟨m, e, canonical, hfinite⟩ := hrounds.exists_finite h
  have hsign : decide ((n : Int) < 0) = false := by simp
  have hquotient : ofQuotient? n d = some (.finite false m e canonical) := by
    simp [ofQuotient?, hsign, hfinite, isFinite]
  rw [hfinite] at hrounds
  exact ⟨m, e, canonical, by rw [ratio, hquotient], hrounds⟩

/-! ### Sums -/

theorem neg_ofParts (negative : Bool) (m : Nat) (e : Int) :
    (ofParts negative m e).neg = ofParts (!negative) m e := by
  unfold ofParts
  dsimp only
  split_ifs <;> rfl

theorem neg_ofRatio (negative : Bool) (n d : Nat) : (ofRatio negative n d).neg = ofRatio (!negative) n d := by
  unfold ofRatio
  split
  · rfl
  · exact neg_ofParts _ _ _

theorem toRat_neg (x : Binary64) : x.neg.toRat = -x.toRat := by
  cases x with
  | finite negative m e h => cases negative <;> simp [neg, toRat_finite]
  | infinite negative => simp [neg, toRat]
  | nan => simp [neg, toRat]

theorem isFinite_neg (x : Binary64) : x.neg.isFinite = x.isFinite := by
  cases x <;> rfl

theorem rounds_ofDyadic (m : Nat) (e : Int) : Rounds (m * 2 ^ e) (ofDyadic false m e) :=
  ⟨_, _, Nat.pow_pos (by decide), (dyadic_quotient m e).symm, rfl⟩

section add

variable {s t : Bool} {m n : Nat} {e f : Int} {h : IsCanonical m e} {h' : IsCanonical n f}

/-- The sum of two finite numbers is made of their exact sum in the smaller one of their units. -/
theorem exists_add_eq : ∃ z unit, finite s m e h + finite t n f h' = ofSigned z unit (s && t) ∧
    (z : ℚ) * 2 ^ unit = (finite s m e h).toRat + (finite t n f h').toRat := by
  refine ⟨signedIn s m e (min e f) + signedIn t n f (min e f), min e f, rfl, ?_⟩
  rw [Int.cast_add, add_mul, signedIn_mul (Int.min_le_left e f), signedIn_mul (Int.min_le_right e f)]

/-- A positive exact sum is rounded to the sum. -/
theorem rounds_add (hsum : 0 < (finite s m e h).toRat + (finite t n f h').toRat) :
    Rounds ((finite s m e h).toRat + (finite t n f h').toRat) (finite s m e h + finite t n f h') := by
  obtain ⟨z, unit, hadd, hvalue⟩ := @exists_add_eq s t m n e f h h'
  rw [← hvalue] at hsum ⊢
  have hz : 0 < z := by
    have := pos_of_mul_pos_left hsum (two_zpow_pos unit).le
    exact_mod_cast this
  have hcast : (z : ℚ) = z.natAbs := by
    rw [Nat.cast_natAbs, abs_of_pos hz]
  rw [hadd, ofSigned, if_neg hz.ne', decide_eq_false (by omega), hcast]
  exact rounds_ofDyadic _ _

/-- The size of a negative exact sum is rounded to that of the sum. -/
theorem rounds_neg_add (hsum : (finite s m e h).toRat + (finite t n f h').toRat < 0) :
    Rounds (-((finite s m e h).toRat + (finite t n f h').toRat)) (finite s m e h + finite t n f h').neg := by
  obtain ⟨z, unit, hadd, hvalue⟩ := @exists_add_eq s t m n e f h h'
  rw [← hvalue] at hsum ⊢
  have hz : z < 0 := by
    have := neg_of_mul_neg_left hsum (two_zpow_pos unit).le
    exact_mod_cast this
  have hcast : -(z : ℚ) = z.natAbs := by
    rw [Nat.cast_natAbs, abs_of_neg hz, Int.cast_neg]
  rw [hadd, ofSigned, if_neg hz.ne, decide_eq_true hz, ← neg_mul, hcast, ofDyadic, neg_ofRatio]
  exact rounds_ofDyadic _ _

/-! ### Whole parts -/

/-- The greatest integer that is not above a finite number is the floor of its value. -/
theorem floor?_eq_some : (finite s m e h).floor? = some ⌊(finite s m e h).toRat⌋ := by
  have hvalue : (finite s m e h).toRat =
      (((if s then -(m : Int) else m) * Nat.pow 2 e.toNat : Int) : ℚ) / (Nat.pow 2 (-e).toNat : Nat) := by
    have hdyadic := dyadic_quotient m e
    rw [toRat_finite, mul_assoc, ← hdyadic]
    cases s <;> simp [neg_div]
  rw [hvalue, Rat.floor_intCast_div_natCast]
  simp [floor?]

/-- The whole part of a finite number is the nearest integer to its value that is not further from zero. -/
theorem truncate?_eq_some : (finite s m e h).truncate? =
    some (if (finite s m e h).toRat < 0 then ⌈(finite s m e h).toRat⌉ else ⌊(finite s m e h).toRat⌋) := by
  have hfloor : ⌊(m : ℚ) * 2 ^ e⌋ = ((m * Nat.pow 2 e.toNat / Nat.pow 2 (-e).toNat : Nat) : Int) := by
    have hcast := Rat.floor_intCast_div_natCast (m * Nat.pow 2 e.toNat : Nat) (Nat.pow 2 (-e).toNat)
    rw [Int.cast_natCast, dyadic_quotient] at hcast
    rw [hcast, Int.natCast_ediv]
  have hpos : 0 ≤ (m : ℚ) * 2 ^ e := mul_nonneg m.cast_nonneg (two_zpow_pos e).le
  rw [toRat_finite, truncate?, ← hfloor]
  cases s with
  | false => simp [hpos.not_gt]
  | true =>
      obtain hzero | hpos := hpos.eq_or_lt
      · simp [← hzero]
      · simp [hpos, Int.ceil_neg]

end add

end GeoWorkload.Binary64
