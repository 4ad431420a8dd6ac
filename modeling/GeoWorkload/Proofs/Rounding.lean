import GeoWorkload.Binary64.Arithmetic
import Mathlib.Algebra.Order.Field.Power
import Mathlib.Tactic.FieldSimp
import Mathlib.Tactic.Linarith
import Mathlib.Tactic.Ring

/-!
# Rounding quotients

A positive quotient is rounded in units of its last place, in which its whole part has at most 53 bits, and
exactly 53 above the least exponent (`Binary64.lt_lastPlace`, `Binary64.lastPlace_le`).  What is rounded so lies at
most half a unit off.
-/

namespace GeoWorkload.Binary64

/-! ### Units -/

theorem two_zpow_pos (e : Int) : (0 : ℚ) < 2 ^ e := zpow_pos (by norm_num) e

theorem natCast_pow_two (k : Nat) : ((Nat.pow 2 k : Nat) : ℚ) = 2 ^ (k : Int) := by
  rw [Nat.pow_eq, zpow_natCast]
  push_cast
  rfl

theorem zpow_toNat_sub (e : Int) : (2 : ℚ) ^ e.toNat = 2 ^ e * 2 ^ (-e).toNat := by
  rw [← zpow_natCast, ← zpow_natCast, ← zpow_add₀ (by norm_num)]
  congr 1
  omega

/-- In units of `2^e` a quotient is so many times smaller. -/
theorem inUnits_div (n d : Nat) (e : Int) :
    ((inUnits n d e).1 : ℚ) / (inUnits n d e).2 * 2 ^ e = (n : ℚ) / d := by
  have hneg : (0 : ℚ) < 2 ^ (-e).toNat := by positivity
  have he := two_zpow_pos e
  unfold inUnits
  simp only [Nat.pow_eq, Nat.cast_mul, Nat.cast_pow, Nat.cast_ofNat]
  rw [zpow_toNat_sub e]
  rcases Nat.eq_zero_or_pos d with rfl | hd
  · simp
  · have hd' : (0 : ℚ) < d := by exact_mod_cast hd
    field_simp

theorem inUnits_pos {n d : Nat} (hd : 0 < d) (e : Int) : 0 < (inUnits n d e).2 :=
  Nat.mul_pos hd (Nat.pow_pos (by decide))

theorem lastPlace_ge (n d : Nat) : -1074 ≤ lastPlace n d := by
  unfold lastPlace
  dsimp only
  split <;> omega

/-- The whole part in units compares with a natural as the quotient compares with that many units. -/
theorem natCast_le_whole_iff {n d : Nat} (hd : 0 < d) (e : Int) (k : Nat) :
    k ≤ (inUnits n d e).1 / (inUnits n d e).2 ↔ (k : ℚ) * 2 ^ e ≤ (n : ℚ) / d := by
  have hd' : (0 : ℚ) < (inUnits n d e).2 := by exact_mod_cast inUnits_pos (n := n) hd e
  rw [Nat.le_div_iff_mul_le (inUnits_pos hd e), ← inUnits_div n d e,
    mul_le_mul_iff_of_pos_right (two_zpow_pos e), le_div_iff₀ hd']
  norm_cast

theorem log2_bounds {n : Nat} (hn : 0 < n) :
    (2 : ℚ) ^ (n.log2 : Int) ≤ n ∧ (n : ℚ) < 2 ^ ((n.log2 : Int) + 1) := by
  have hhigh : n < 2 ^ (n.log2 + 1) := Nat.lt_log2_self
  constructor
  · rw [zpow_natCast]
    exact_mod_cast Nat.log2_self_le hn.ne'
  · exact_mod_cast hhigh

/-- A quotient lies within a factor of two of the quotient of the leading powers. -/
theorem log2_sub_bounds {n d : Nat} (hn : 0 < n) (hd : 0 < d) :
    (2 : ℚ) ^ ((n.log2 : Int) - d.log2 - 1) ≤ (n : ℚ) / d ∧
      (n : ℚ) / d < (2 : ℚ) ^ ((n.log2 : Int) - d.log2 + 1) := by
  have hd' : (0 : ℚ) < d := by exact_mod_cast hd
  obtain ⟨hnlow, hnhigh⟩ := log2_bounds hn
  obtain ⟨hdlow, hdhigh⟩ := log2_bounds hd
  constructor
  · rw [le_div_iff₀ hd']
    calc (2 : ℚ) ^ ((n.log2 : Int) - d.log2 - 1) * d
        ≤ 2 ^ ((n.log2 : Int) - d.log2 - 1) * 2 ^ ((d.log2 : Int) + 1) :=
          mul_le_mul_of_nonneg_left hdhigh.le (two_zpow_pos _).le
      _ = 2 ^ (n.log2 : Int) := by
          rw [← zpow_add₀ (by norm_num)]
          congr 1
          omega
      _ ≤ n := hnlow
  · rw [div_lt_iff₀ hd']
    calc (n : ℚ) < 2 ^ ((n.log2 : Int) + 1) := hnhigh
      _ = 2 ^ ((n.log2 : Int) - d.log2 + 1) * 2 ^ (d.log2 : Int) := by
          rw [← zpow_add₀ (by norm_num)]
          congr 1
          omega
      _ ≤ 2 ^ ((n.log2 : Int) - d.log2 + 1) * d :=
          mul_le_mul_of_nonneg_left hdlow (two_zpow_pos _).le

/-- A quotient has at most 53 bits in units of its last place. -/
theorem lt_lastPlace {n d : Nat} (hn : 0 < n) (hd : 0 < d) :
    (n : ℚ) / d < 2 ^ (lastPlace n d + 53) := by
  obtain ⟨_, hhigh⟩ := log2_sub_bounds hn hd
  unfold lastPlace
  dsimp only
  split
  · rename_i hlt
    have hwhole := mt (natCast_le_whole_iff hd (max ((n.log2 : Int) - d.log2 - 53) (-1074)) (Nat.pow 2 53)).mpr
      (Nat.not_le.mpr hlt)
    rw [natCast_pow_two, not_le] at hwhole
    rwa [zpow_add₀ (by norm_num), mul_comm]
  · refine lt_of_lt_of_le hhigh (zpow_le_zpow_right₀ (by norm_num) ?_)
    omega

/-- Above the least exponent, a quotient has no fewer than 53 bits in units of its last place. -/
theorem lastPlace_le {n d : Nat} (hn : 0 < n) (hd : 0 < d) (h : lastPlace n d ≠ -1074) :
    (2 : ℚ) ^ (lastPlace n d + 52) ≤ (n : ℚ) / d := by
  obtain ⟨hlow, _⟩ := log2_sub_bounds hn hd
  revert h
  unfold lastPlace
  dsimp only
  split
  · intro h
    refine le_trans (zpow_le_zpow_right₀ (by norm_num) ?_) hlow
    omega
  · rename_i hge
    intro _
    have hwhole := (natCast_le_whole_iff hd (max ((n.log2 : Int) - d.log2 - 53) (-1074)) (Nat.pow 2 53)).mp
      (Nat.not_lt.mp hge)
    rw [show max ((n.log2 : Int) - d.log2 - 53) (-1074) + 1 + 52 =
      53 + max ((n.log2 : Int) - d.log2 - 53) (-1074) by omega, zpow_add₀ (by norm_num)]
    rwa [natCast_pow_two] at hwhole

/-! ### Rounded quotients -/

theorem whole_le_roundHalfEven (n d : Nat) : n / d ≤ roundHalfEven n d := by
  unfold roundHalfEven
  dsimp only
  split
  · exact Nat.le_refl _
  · split <;> omega

/-- Rounding goes up by a half at most. -/
theorem roundHalfEven_le (n : Nat) {d : Nat} (hd : 0 < d) : (roundHalfEven n d : ℚ) ≤ n / d + 1 / 2 := by
  have hd' : (0 : ℚ) < d := by exact_mod_cast hd
  have hsplit : (n : ℚ) = d * (n / d : Nat) + (n % d : Nat) := by exact_mod_cast (Nat.div_add_mod n d).symm
  have hrest : (n : ℚ) / d = (n / d : Nat) + (n % d : Nat) / (d : ℚ) := by
    rw [div_eq_iff hd'.ne', add_mul, div_mul_cancel₀ _ hd'.ne']
    linarith
  have hnonneg : 0 ≤ ((n % d : Nat) : ℚ) / d := div_nonneg (Nat.cast_nonneg _) hd'.le
  rw [hrest]
  unfold roundHalfEven
  dsimp only
  split
  · linarith
  · rename_i hhalf
    have hge : (1 / 2 : ℚ) ≤ (n % d : Nat) / (d : ℚ) := by
      rw [div_le_div_iff₀ (by norm_num) hd']
      have h : d ≤ 2 * (n % d) := by omega
      have h' : (d : ℚ) ≤ 2 * ((n % d : Nat) : ℚ) := by exact_mod_cast h
      linarith
    split
    · push_cast
      linarith
    · have hmod : n / d % 2 ≤ 1 := by omega
      have hmod' : ((n / d % 2 : Nat) : ℚ) ≤ 1 := by exact_mod_cast hmod
      push_cast
      linarith

/-- The significand that a quotient is rounded to, in units of its last place. -/
def rounded (n d : Nat) : Nat :=
  roundHalfEven (inUnits n d (lastPlace n d)).1 (inUnits n d (lastPlace n d)).2

section rounded

variable {n d : Nat} (hn : 0 < n) (hd : 0 < d)

include hd

theorem rounded_le_add_half :
    (rounded n d : ℚ) * 2 ^ lastPlace n d ≤ (n : ℚ) / d + 1 / 2 * 2 ^ lastPlace n d := by
  have hhalf := roundHalfEven_le (inUnits n d (lastPlace n d)).1 (inUnits_pos (n := n) hd (lastPlace n d))
  have hscaled := mul_le_mul_of_nonneg_right hhalf (two_zpow_pos (lastPlace n d)).le
  rwa [add_mul, inUnits_div] at hscaled

/-- A quotient of at least so many units is rounded to no fewer. -/
theorem le_rounded {k : Nat} (h : (k : ℚ) * 2 ^ lastPlace n d ≤ (n : ℚ) / d) : k ≤ rounded n d :=
  le_trans ((natCast_le_whole_iff hd _ k).mpr h) (whole_le_roundHalfEven _ _)

include hn

theorem rounded_le : rounded n d ≤ 2 ^ 53 := by
  have hlt := lt_lastPlace hn hd
  have hhalf := rounded_le_add_half (n := n) hd
  rw [zpow_add₀ (by norm_num)] at hlt
  have h : (rounded n d : ℚ) * 2 ^ lastPlace n d < (2 ^ 53 + 1) * 2 ^ lastPlace n d := by
    norm_num at hlt ⊢
    linarith [two_zpow_pos (lastPlace n d)]
  have h' : (rounded n d : ℚ) < 2 ^ 53 + 1 := lt_of_mul_lt_mul_right h (two_zpow_pos _).le
  exact Nat.lt_succ_iff.mp (by exact_mod_cast h')

/-- A quotient that lies less than half a unit above a number of 53 bits is not rounded beyond that number. -/
theorem rounded_le_of_lt {k : Nat} {e : Int} (hlow : 2 ^ 52 ≤ k) (hhigh : k < 2 ^ 53) (he : -1074 ≤ e)
    (h : (n : ℚ) / d < (k + 1 / 2) * 2 ^ e) : (rounded n d : ℚ) * 2 ^ lastPlace n d ≤ k * 2 ^ e := by
  have hk : (k : ℚ) + 1 ≤ 2 ^ 53 := by exact_mod_cast hhigh
  have hk' : (2 : ℚ) ^ 52 ≤ k := by exact_mod_cast hlow
  rcases lt_trichotomy (lastPlace n d) e with hlt | heq | hgt
  · -- a smaller unit: 2^53 of these are not more than the 2^52 of the other kind
    have hr : (rounded n d : ℚ) ≤ 2 ^ 53 := by exact_mod_cast rounded_le hn hd
    calc (rounded n d : ℚ) * 2 ^ lastPlace n d ≤ 2 ^ 53 * 2 ^ lastPlace n d :=
          mul_le_mul_of_nonneg_right hr (two_zpow_pos _).le
      _ = 2 ^ 52 * 2 ^ (lastPlace n d + 1) := by
          rw [zpow_add₀ (by norm_num)]
          ring
      _ ≤ 2 ^ 52 * 2 ^ e :=
          mul_le_mul_of_nonneg_left (zpow_le_zpow_right₀ (by norm_num) (by omega)) (by norm_num)
      _ ≤ k * 2 ^ e := mul_le_mul_of_nonneg_right hk' (two_zpow_pos _).le
  · have hhalf := rounded_le_add_half (n := n) hd
    rw [heq] at hhalf ⊢
    have hlt : (rounded n d : ℚ) * 2 ^ e < (k + 1) * 2 ^ e := by linarith
    have hlt' : (rounded n d : ℚ) < k + 1 := lt_of_mul_lt_mul_right hlt (two_zpow_pos _).le
    have hle : rounded n d ≤ k := Nat.lt_succ_iff.mp (by exact_mod_cast hlt')
    exact mul_le_mul_of_nonneg_right (by exact_mod_cast hle) (two_zpow_pos _).le
  · -- a greater unit: the quotient has 53 bits in it and lies above the bound
    have hle := lastPlace_le hn hd (by omega)
    have hunit : (2 : ℚ) ^ (e + 1) ≤ 2 ^ lastPlace n d := zpow_le_zpow_right₀ (by norm_num) (by omega)
    rw [zpow_add₀ (by norm_num)] at hle hunit
    norm_num at hle hunit
    nlinarith [two_zpow_pos e]

/-- A quotient that is no smaller than the least positive number is not rounded to zero. -/
theorem rounded_pos (h : (2 : ℚ) ^ (-1074 : Int) ≤ (n : ℚ) / d) : 0 < rounded n d := by
  refine le_rounded hd ?_
  rw [Nat.cast_one, one_mul]
  by_cases hleast : lastPlace n d = -1074
  · rwa [hleast]
  · exact le_trans (zpow_le_zpow_right₀ (by norm_num) (by omega)) (lastPlace_le hn hd hleast)

end rounded

/-- A significand that may have grown to `2^53` keeps its value, unless it lies beyond all numbers. -/
theorem ofParts_cases (negative : Bool) (m : Nat) (e : Int) :
    (∃ m' e' canonical, ofParts negative m e = .finite negative m' e' canonical ∧
      (m' : ℚ) * 2 ^ e' = m * 2 ^ e) ∨ ofParts negative m e = .infinite negative := by
  have hparts : ∀ (m' : Nat) (e' : Int), (m' : ℚ) * 2 ^ e' = m * 2 ^ e →
      (∃ m'' e'' canonical, (if h : IsCanonical m' e' then finite negative m' e' h else .infinite negative) =
          .finite negative m'' e'' canonical ∧ (m'' : ℚ) * 2 ^ e'' = m * 2 ^ e) ∨
        (if h : IsCanonical m' e' then finite negative m' e' h else .infinite negative) = .infinite negative := by
    intro m' e' hvalue
    by_cases h : IsCanonical m' e'
    · rw [dif_pos h]
      exact Or.inl ⟨m', e', h, rfl, hvalue⟩
    · rw [dif_neg h]
      exact Or.inr rfl
  unfold ofParts
  by_cases hfull : m = Nat.pow 2 53
  · rw [if_pos hfull]
    apply hparts
    rw [hfull, natCast_pow_two, natCast_pow_two, ← zpow_add₀ (by norm_num), ← zpow_add₀ (by norm_num)]
    congr 1
    omega
  · rw [if_neg hfull]
    exact hparts m e rfl

/-- A quotient is rounded to so many units of its last place, unless that lies beyond all numbers. -/
theorem ofRatio_cases (negative : Bool) {n : Nat} (hn : 0 < n) (d : Nat) :
    (∃ m e canonical, ofRatio negative n d = .finite negative m e canonical ∧
      (m : ℚ) * 2 ^ e = rounded n d * 2 ^ lastPlace n d) ∨ ofRatio negative n d = .infinite negative := by
  unfold ofRatio
  rw [if_neg hn.ne']
  exact ofParts_cases negative (rounded n d) (lastPlace n d)

/-! ### Signs -/

/-- The exact value of the quotient that stands for a dyadic. -/
theorem dyadic_quotient (m : Nat) (e : Int) :
    ((m * Nat.pow 2 e.toNat : Nat) : ℚ) / (Nat.pow 2 (-e).toNat : Nat) = m * 2 ^ e := by
  have hneg : (0 : ℚ) < 2 ^ (-e).toNat := by positivity
  rw [Nat.pow_eq, Nat.pow_eq, div_eq_iff (by exact_mod_cast hneg.ne')]
  push_cast
  rw [zpow_toNat_sub e]
  ring

theorem isPositive_finite_iff {negative : Bool} {m : Nat} {e : Int} {h : IsCanonical m e} :
    (finite negative m e h).isPositive = true ↔ negative = false ∧ 0 < m := by
  show decide (signedIn false 0 (-1074) (min (-1074) e) < signedIn negative m e (min (-1074) e)) = true ↔ _
  unfold signedIn
  rw [decide_eq_true_iff, Nat.zero_mul]
  cases negative with
  | false => simp
  | true => simp

theorem isNegative_finite_iff {negative : Bool} {m : Nat} {e : Int} {h : IsCanonical m e} :
    (finite negative m e h).isNegative = true ↔ negative = true ∧ 0 < m := by
  show decide (signedIn negative m e (min e (-1074)) < signedIn false 0 (-1074) (min e (-1074))) = true ↔ _
  unfold signedIn
  rw [decide_eq_true_iff, Nat.zero_mul]
  cases negative with
  | false => simp
  | true => simp

theorem isPositive_iff {x : Binary64} : x.isPositive = true ↔
    x = .infinite false ∨ ∃ m e h, 0 < m ∧ x = .finite false m e h := by
  cases x with
  | nan => simp [isPositive, lt, zero]
  | infinite negative => cases negative <;> simp [isPositive, lt, zero]
  | finite negative m e h =>
      rw [isPositive_finite_iff]
      constructor
      · rintro ⟨rfl, hm⟩
        exact Or.inr ⟨m, e, h, hm, rfl⟩
      · rintro (hinfinite | ⟨m', e', h', hm, heq⟩)
        · cases hinfinite
        · cases heq
          exact ⟨rfl, hm⟩

/-- A positive multiple of the least positive number is rounded to a positive number. -/
theorem isPositive_ofDyadic {m : Nat} (hm : 0 < m) {e : Int} (he : -1074 ≤ e) :
    (ofDyadic false m e).isPositive = true := by
  have hn : 0 < m * Nat.pow 2 e.toNat := Nat.mul_pos hm (Nat.pow_pos (by decide))
  have hd : 0 < Nat.pow 2 (-e).toNat := Nat.pow_pos (by decide)
  have hleast : (2 : ℚ) ^ (-1074 : Int) ≤ m * 2 ^ e := by
    have hone : (1 : ℚ) ≤ m := by exact_mod_cast hm
    have hpow : (2 : ℚ) ^ (-1074 : Int) ≤ 2 ^ e := zpow_le_zpow_right₀ (by norm_num) he
    nlinarith [two_zpow_pos e]
  rw [← dyadic_quotient] at hleast
  unfold ofDyadic
  rcases ofRatio_cases false hn (Nat.pow 2 (-e).toNat) with ⟨m', e', h, heq, hvalue⟩ | heq
  · rw [heq, isPositive_finite_iff]
    refine ⟨rfl, Nat.pos_of_ne_zero ?_⟩
    rintro rfl
    have hpositive : (0 : ℚ) < rounded (m * Nat.pow 2 e.toNat) (Nat.pow 2 (-e).toNat) := by
      exact_mod_cast rounded_pos hn hd hleast
    rw [Nat.cast_zero, zero_mul] at hvalue
    exact absurd hvalue.symm (mul_pos hpositive (two_zpow_pos _)).ne'
  · rw [heq]
    rfl

/-- The sum of two positive numbers is positive. -/
theorem isPositive_add {x y : Binary64} (hx : x.isPositive = true) (hy : y.isPositive = true) :
    (x + y).isPositive = true := by
  rcases isPositive_iff.mp hx with rfl | ⟨m, e, h, hm, rfl⟩
  · rcases isPositive_iff.mp hy with rfl | ⟨n, f, h', hn, rfl⟩ <;> rfl
  · rcases isPositive_iff.mp hy with rfl | ⟨n, f, h', hn, rfl⟩
    · rfl
    · have hunit : -1074 ≤ min e f := le_min h.2.1 h'.2.1
      have hpow : 0 < Nat.pow 2 (e - min e f).toNat := Nat.pow_pos (by decide)
      have hm' : 0 < m * Nat.pow 2 (e - min e f).toNat := Nat.mul_pos hm hpow
      show (ofSigned (((m * Nat.pow 2 (e - min e f).toNat : Nat) : Int) +
        (n * Nat.pow 2 (f - min e f).toNat : Nat)) (min e f) (false && false)).isPositive = true
      rw [← Int.natCast_add]
      generalize n * Nat.pow 2 (f - min e f).toNat = b
      generalize m * Nat.pow 2 (e - min e f).toNat = a at hm'
      unfold ofSigned
      rw [if_neg (by omega), decide_eq_false (by omega), Int.natAbs_natCast]
      exact isPositive_ofDyadic (by omega) hunit

end GeoWorkload.Binary64
