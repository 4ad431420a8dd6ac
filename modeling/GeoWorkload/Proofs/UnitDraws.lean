import GeoWorkload.Proofs.Draws
import GeoWorkload.Proofs.Rounding
import Mathlib.Data.Nat.Cast.Order.Field

/-!
# Draws from numbers below one

A source is proper if every number that it gives lies from zero to below one (`RandomSource.Proper`), as those of a
twister do (`RandomSource.proper_twister`).  An integer below a bound is the whole part of such a number times the
bound.  Both the bound and the product are rounded, but never so far that the whole part comes to the bound: the
greatest number below one is `1 - 2^-53`, and what that takes off a bound of 53 bits is half a unit
(`Binary64.rounded_lt_of_share`).  So a proper source draws below every bound, unless numbers fail
(`RandomSource.Proper.below_range`).
-/

namespace GeoWorkload

namespace Binary64

/-! ### Values -/

variable {s t : Bool} {m n : Nat} {e f : Int} {h : IsCanonical m e} {h' : IsCanonical n f}

theorem toRat_finite : (finite s m e h).toRat = (if s then -1 else 1) * m * 2 ^ e := rfl

/-- The value of a number is its significand in units that divide it. -/
theorem signedIn_mul {unit : Int} (hunit : unit ≤ e) :
    (signedIn s m e unit : ℚ) * 2 ^ unit = (finite s m e h).toRat := by
  have hpow : (2 : ℚ) ^ (e - unit).toNat * 2 ^ unit = 2 ^ e := by
    rw [← zpow_natCast, ← zpow_add₀ (by norm_num)]
    congr 1
    omega
  rw [toRat_finite, ← hpow]
  unfold signedIn
  cases s with
  | true =>
      simp only [if_true, Nat.pow_eq]
      push_cast
      ring
  | false =>
      simp only [Bool.false_eq_true, if_false, Nat.pow_eq]
      push_cast
      ring

/-- Finite numbers are ordered as their values are. -/
theorem lt_finite_iff : (finite s m e h).lt (finite t n f h') = true ↔
    (finite s m e h).toRat < (finite t n f h').toRat := by
  show decide (signedIn s m e (min e f) < signedIn t n f (min e f)) = true ↔ _
  rw [decide_eq_true_iff, ← signedIn_mul (Int.min_le_left e f), ← signedIn_mul (Int.min_le_right e f),
    mul_lt_mul_iff_of_pos_right (two_zpow_pos _), Int.cast_lt]

/-- The number lies from zero to below one. -/
def InUnitInterval (u : Binary64) : Prop := u.isNegative = false ∧ u.lt 1 = true

theorem one_eq : (1 : Binary64) = .finite false (Nat.pow 2 52) (-52) (by decide) := by decide +kernel

theorem toRat_one : (1 : Binary64).toRat = 1 := by
  rw [one_eq, toRat_finite]
  norm_num

theorem half_eq : half = .finite false (Nat.pow 2 52) (-53) (by decide) := by decide +kernel

theorem toRat_half : half.toRat = 1 / 2 := by
  rw [half_eq, toRat_finite]
  norm_num

theorem inUnitInterval_finite_iff :
    (finite s m e h).InUnitInterval ↔ (s = true → m = 0) ∧ (finite s m e h).toRat < 1 := by
  unfold InUnitInterval
  rw [one_eq, lt_finite_iff, ← one_eq, toRat_one, ← Bool.not_eq_true, isNegative_finite_iff, not_and,
    Nat.pos_iff_ne_zero, not_not]

/-- Below one there is a gap of `2^-53` at least. -/
theorem mul_zpow_le (hm : m < 2 ^ 53) (hlt : (m : ℚ) * 2 ^ e < 1) : (m : ℚ) * 2 ^ e ≤ 1 - 2 ^ (-53 : Int) := by
  have he := two_zpow_pos e
  rcases Nat.eq_zero_or_pos m with rfl | hpos
  · norm_num
  · have hone : (1 : ℚ) ≤ m := by exact_mod_cast hpos
    have hneg : e < 0 := by
      have hlt' : (2 : ℚ) ^ e < 2 ^ (0 : Int) := by
        rw [zpow_zero]
        nlinarith
      exact (zpow_lt_zpow_iff_right₀ (by norm_num)).mp hlt'
    rcases Int.lt_or_le e (-53) with hfar | hnear
    · -- so small that 53 bits make less than a half
      have hm' : (m : ℚ) ≤ 2 ^ (53 : Int) := by exact_mod_cast hm.le
      calc (m : ℚ) * 2 ^ e ≤ 2 ^ (53 : Int) * 2 ^ e := mul_le_mul_of_nonneg_right hm' he.le
        _ = 2 ^ (53 + e) := (zpow_add₀ (by norm_num) _ _).symm
        _ ≤ 2 ^ (-1 : Int) := zpow_le_zpow_right₀ (by norm_num) (by omega)
        _ ≤ 1 - 2 ^ (-53 : Int) := by norm_num
    · -- one unit more comes to one at most
      obtain ⟨k, rfl⟩ : ∃ k : Nat, e = -(k : Int) := ⟨(-e).toNat, by omega⟩
      rw [zpow_neg, zpow_natCast] at hlt ⊢
      have hk : (0 : ℚ) < 2 ^ k := by positivity
      have hlt' : (m : ℚ) < 2 ^ k := by rwa [← div_eq_mul_inv, div_lt_one₀ hk] at hlt
      have hle : m + 1 ≤ 2 ^ k := by exact_mod_cast hlt'
      have hle' : (m : ℚ) + 1 ≤ 2 ^ k := by exact_mod_cast hle
      have hunit : (2 : ℚ) ^ (-53 : Int) ≤ (2 ^ k)⁻¹ := by
        rw [← zpow_natCast, ← zpow_neg]
        exact zpow_le_zpow_right₀ (by norm_num) hnear
      have hsum : ((m : ℚ) + 1) * (2 ^ k)⁻¹ ≤ 1 := by rwa [← div_eq_mul_inv, div_le_one₀ hk]
      linarith

section share

variable {n d : Nat}

/-- What takes `2^-53` off a number of 53 bits above the least of these takes off more than half a unit. -/
theorem rounded_lt_of_share_above (hn : 0 < n) (hd : 0 < d) {k : Nat} {e : Int} (hlow : 2 ^ 52 ≤ k) (hhigh : k < 2 ^ 53)
    (he : -1074 ≤ e) (h : (n : ℚ) / d ≤ (1 - 2 ^ (-53 : Int)) * ((k + 1) * 2 ^ e)) :
    (rounded n d : ℚ) * 2 ^ lastPlace n d ≤ k * 2 ^ e := by
  have hk : (2 : ℚ) ^ 52 < k + 1 := by exact_mod_cast Nat.lt_succ_of_le hlow
  have hshare : (1 - 2 ^ (-53 : Int) : ℚ) * (k + 1) < k + 1 / 2 := by
    norm_num at hk ⊢
    linarith only [hk]
  apply rounded_le_of_lt hn hd hlow hhigh he
  refine lt_of_le_of_lt h ?_
  rw [← mul_assoc]
  exact mul_lt_mul_of_pos_right hshare (two_zpow_pos e)

/-- What takes `2^-53` off the least number of 53 bits takes off half a unit, which is a whole one below it. -/
theorem rounded_lt_of_share_least (hn : 0 < n) (hd : 0 < d) {e : Int} (he : -1074 < e)
    (h : (n : ℚ) / d ≤ (1 - 2 ^ (-53 : Int)) * (2 ^ 52 * 2 ^ e)) :
    (rounded n d : ℚ) * 2 ^ lastPlace n d < 2 ^ 52 * 2 ^ e := by
  obtain ⟨k, hk⟩ : ∃ k : Nat, k + 1 = 2 ^ 53 := ⟨2 ^ 53 - 1, by norm_num⟩
  have hk' : (k : ℚ) + 1 = 2 ^ 53 := by exact_mod_cast hk
  have hbelow : (2 : ℚ) ^ e = 2 * 2 ^ (e - 1) := by
    rw [zpow_sub₀ (by norm_num)]
    norm_num
    ring
  have hpos := two_zpow_pos (e - 1)
  have hshare : (1 - 2 ^ (-53 : Int) : ℚ) * (2 ^ 52 * 2) = k := by
    norm_num at hk' ⊢
    linarith only [hk']
  have hround : (rounded n d : ℚ) * 2 ^ lastPlace n d ≤ k * 2 ^ (e - 1) := by
    apply rounded_le_of_lt hn hd (by omega) (by omega) (by omega)
    refine lt_of_le_of_lt h ?_
    rw [hbelow, ← mul_assoc, ← mul_assoc, mul_assoc _ _ (2 : ℚ), hshare]
    exact mul_lt_mul_of_pos_right (by linarith only) hpos
  have hless : (k : ℚ) < 2 ^ 52 * 2 := by linarith only [hk']
  calc (rounded n d : ℚ) * 2 ^ lastPlace n d ≤ k * 2 ^ (e - 1) := hround
    _ < 2 ^ 52 * 2 * 2 ^ (e - 1) := mul_lt_mul_of_pos_right hless hpos
    _ = 2 ^ 52 * 2 ^ e := by rw [hbelow, mul_assoc]

/-- The unit of a positive natural is far above the least one. -/
theorem lt_lastPlace_one {z : Nat} (hz : 0 < z) : -53 < lastPlace z 1 := by
  have hz' : (1 : ℚ) ≤ (z : ℚ) / (1 : Nat) := by
    rw [Nat.cast_one, div_one]
    exact_mod_cast hz
  have hlt := lt_of_le_of_lt hz' (lt_lastPlace hz Nat.one_pos)
  have hlt' : (2 : ℚ) ^ (0 : Int) < 2 ^ (lastPlace z 1 + 53) := by rwa [zpow_zero]
  have := (zpow_lt_zpow_iff_right₀ (by norm_num)).mp hlt'
  omega

/-- A share of a rounded natural that leaves `2^-53` of it is rounded to below the natural itself. -/
theorem rounded_lt_of_share {z : Nat} (hz : 0 < z) (hn : 0 < n) (hd : 0 < d)
    (h : (n : ℚ) / d ≤ (1 - 2 ^ (-53 : Int)) * (rounded z 1 * 2 ^ lastPlace z 1)) :
    (rounded n d : ℚ) * 2 ^ lastPlace n d < z := by
  have hunit := lt_lastPlace_one hz
  have hfull := lastPlace_le hz Nat.one_pos (by omega)
  have hhalf := rounded_le_add_half (n := z) Nat.one_pos
  rw [zpow_add₀ (by norm_num), mul_comm] at hfull
  have hlow : 2 ^ 52 ≤ rounded z 1 := by
    refine le_rounded Nat.one_pos ?_
    push_cast
    exact_mod_cast hfull
  have hhigh := rounded_le hz Nat.one_pos
  have hpos := two_zpow_pos (lastPlace z 1)
  rw [Nat.cast_one, div_one] at hfull hhalf
  rcases Nat.lt_or_ge (2 ^ 52) (rounded z 1) with hlt | hge
  · obtain ⟨k, hk⟩ : ∃ k, rounded z 1 = k + 1 := ⟨rounded z 1 - 1, by omega⟩
    rw [hk, Nat.cast_add, Nat.cast_one] at h hhalf
    refine lt_of_le_of_lt (rounded_lt_of_share_above hn hd (by omega) (by omega) (by omega) h) ?_
    linarith only [hhalf, hpos]
  · have hr : (rounded z 1 : ℚ) = 2 ^ 52 := by exact_mod_cast Nat.le_antisymm hge hlow
    rw [hr] at h
    exact lt_of_lt_of_le (rounded_lt_of_share_least hn hd (by omega) h) hfull

end share

/-! ### Integers -/

theorem isFinite_of_ofInteger {z : Int} {x : Binary64} (h : ofInteger z = .ok x) : ofInt z = x ∧ x.isFinite = true := by
  unfold ofInteger ofInt? at h
  dsimp only at h
  split at h
  · rename_i hsome
    split at hsome
    · rename_i hfinite
      cases hsome
      cases h
      exact ⟨rfl, hfinite⟩
    · cases hsome
  · cases h

/-! ### Quotients within the range -/

theorem isFinite_ofParts (negative : Bool) (hm : m ≤ Nat.pow 2 53) (he : -1074 ≤ e) (he' : e ≤ 971)
    (hgreatest : e = 971 → m < Nat.pow 2 53) (hfull : Nat.pow 2 52 ≤ m ∨ e = -1074) :
    (ofParts negative m e).isFinite = true := by
  have hpow : Nat.pow 2 52 < Nat.pow 2 53 := by decide
  unfold ofParts
  by_cases h : m = Nat.pow 2 53
  · have hcanonical : IsCanonical (Nat.pow 2 52) (e + 1) := ⟨hpow, by omega, by omega, Or.inl (Nat.le_refl _)⟩
    rw [if_pos h]
    dsimp only
    rw [dif_pos hcanonical]
    rfl
  · have hcanonical : IsCanonical m e := ⟨by omega, he, he', hfull⟩
    rw [if_neg h]
    dsimp only
    rw [dif_pos hcanonical]
    rfl

/-- A quotient that lies less than half a unit above the greatest number is rounded to a finite one. -/
theorem isFinite_ofRatio (negative : Bool) {n d : Nat} (hn : 0 < n) (hd : 0 < d)
    (h : (n : ℚ) / d < (2 ^ 53 - 1 / 2) * 2 ^ (971 : Int)) : (ofRatio negative n d).isFinite = true := by
  have hpos := two_zpow_pos 971
  have hunit : lastPlace n d ≤ 971 := by
    by_cases hleast : lastPlace n d = -1074
    · omega
    · have hlt : (2 : ℚ) ^ (lastPlace n d + 52) < 2 ^ (53 + 971 : Int) := by
        refine lt_of_le_of_lt (lastPlace_le hn hd hleast) (lt_of_lt_of_le h ?_)
        rw [zpow_add₀ (by norm_num)]
        exact mul_le_mul_of_nonneg_right (by norm_num) hpos.le
      have := (zpow_lt_zpow_iff_right₀ (by norm_num)).mp hlt
      omega
  have hgreatest : lastPlace n d = 971 → rounded n d < Nat.pow 2 53 := by
    intro hlast
    obtain ⟨k, hk⟩ : ∃ k : Nat, k + 1 = 2 ^ 53 := ⟨2 ^ 53 - 1, by norm_num⟩
    have hk' : (k : ℚ) + 1 / 2 = 2 ^ 53 - 1 / 2 := by
      have : (k : ℚ) + 1 = 2 ^ 53 := by exact_mod_cast hk
      linarith only [this]
    rw [← hk'] at h
    have hround := rounded_le_of_lt hn hd (by omega) (by omega) (by omega) h
    rw [hlast] at hround
    have hround' : (rounded n d : ℚ) ≤ k := le_of_mul_le_mul_right hround hpos
    have hle : rounded n d ≤ k := by exact_mod_cast hround'
    simp only [Nat.pow_eq]
    omega
  unfold ofRatio
  rw [if_neg hn.ne']
  refine isFinite_ofParts negative (rounded_le hn hd) (lastPlace_ge n d) hunit hgreatest ?_
  by_cases hleast : lastPlace n d = -1074
  · exact Or.inr hleast
  · left
    refine le_rounded hd ?_
    have hfull := lastPlace_le hn hd hleast
    rw [natCast_pow_two]
    rwa [zpow_add₀ (by norm_num), mul_comm] at hfull

/-- A quotient that lies no nearer to one than `2^-53` is rounded to below one. -/
theorem inUnitInterval_ofRatio {n d : Nat} (hn : 0 < n) (hd : 0 < d) (h : (n : ℚ) / d ≤ 1 - 2 ^ (-53 : Int)) :
    (ofRatio false n d).InUnitInterval := by
  have hpow := two_zpow_pos (-53)
  obtain ⟨k, hk⟩ : ∃ k : Nat, k + 1 = 2 ^ 53 := ⟨2 ^ 53 - 1, by norm_num⟩
  have hgreatest : (k : ℚ) * 2 ^ (-53 : Int) = 1 - 2 ^ (-53 : Int) := by
    have hk' : (k : ℚ) = 2 ^ 53 - 1 := eq_sub_of_add_eq (by exact_mod_cast hk)
    rw [hk']
    norm_num
  have hround : (rounded n d : ℚ) * 2 ^ lastPlace n d ≤ k * 2 ^ (-53 : Int) := by
    refine rounded_le_of_lt hn hd (k := k) (by omega) (by omega) (by omega) ?_
    rw [add_mul, hgreatest]
    linarith only [h, hpow]
  rcases ofRatio_cases false hn d with ⟨m, e, canonical, heq, hvalue⟩ | hinfinite
  · rw [heq, inUnitInterval_finite_iff, toRat_finite, if_neg Bool.false_ne_true, one_mul, hvalue]
    exact ⟨fun hfalse => absurd hfalse Bool.false_ne_true, by linarith only [hround, hgreatest, hpow]⟩
  · have hone : (1 : ℚ) ≤ 2 ^ (971 : Int) := one_le_zpow₀ (by norm_num) (by norm_num)
    have hbelow : (n : ℚ) / d < (2 ^ 53 - 1 / 2) * 2 ^ (971 : Int) :=
      calc (n : ℚ) / d < 1 := by linarith only [h, hpow]
        _ ≤ 2 ^ (971 : Int) := hone
        _ ≤ (2 ^ 53 - 1 / 2) * 2 ^ (971 : Int) := le_mul_of_one_le_left (two_zpow_pos _).le (by norm_num)
    have hfinite := isFinite_ofRatio false hn hd hbelow
    rw [hinfinite] at hfinite
    cases hfinite

theorem inUnitInterval_ofDyadic {k : Nat} (hk : k < 2 ^ 53) : (ofDyadic false k (-53)).InUnitInterval := by
  rcases Nat.eq_zero_or_pos k with rfl | hpos
  · exact ⟨by decide +kernel, by decide +kernel⟩
  · unfold ofDyadic
    refine inUnitInterval_ofRatio (Nat.mul_pos hpos (Nat.pow_pos (by decide))) (Nat.pow_pos (by decide)) ?_
    rw [dyadic_quotient]
    have hk' : (k : ℚ) ≤ 2 ^ 53 - 1 := le_sub_iff_add_le.mpr (by exact_mod_cast hk)
    calc (k : ℚ) * 2 ^ (-53 : Int) ≤ (2 ^ 53 - 1) * 2 ^ (-53 : Int) :=
          mul_le_mul_of_nonneg_right hk' (two_zpow_pos _).le
      _ = 1 - 2 ^ (-53 : Int) := by norm_num

/-! ### Whole parts -/

/-- The whole part of a number that is not negative lies from zero to its value. -/
theorem toInteger_range {r : Int} (hr : (finite false m e h).toInteger = .ok r) :
    0 ≤ r ∧ (r : ℚ) ≤ m * 2 ^ e := by
  obtain rfl : ((m * Nat.pow 2 e.toNat / Nat.pow 2 (-e).toNat : Nat) : Int) = r := Except.ok.inj hr
  refine ⟨Int.natCast_nonneg _, ?_⟩
  rw [Int.cast_natCast, ← dyadic_quotient]
  exact Nat.cast_div_le

theorem toInteger_zero (negative : Bool) : (zero negative).toInteger = .ok 0 := by
  simp only [zero, toInteger, truncate?, Nat.zero_mul, Nat.zero_div]
  cases negative with
  | true => rfl
  | false => rfl

/-- A number that is not negative has no negative whole part. -/
theorem nonneg_of_toInteger {x : Binary64} (hx : x.isNegative = false) {r : Int} (hr : x.toInteger = .ok r) :
    0 ≤ r := by
  cases x with
  | nan => cases hr
  | infinite negative => cases hr
  | finite negative m e h =>
      cases negative with
      | false => exact (toInteger_range hr).1
      | true =>
          rw [← Bool.not_eq_true, isNegative_finite_iff] at hx
          obtain rfl : m = 0 := by simpa using hx
          simp only [toInteger, truncate?, Nat.zero_mul, Nat.zero_div] at hr
          cases hr
          exact Int.le_refl 0

/-! ### Products -/

section product

variable {k l : Nat} {f : Int}

theorem product_le (hk : k < 2 ^ 53) (hlt : (k : ℚ) * 2 ^ e < 1) :
    ((k * l * Nat.pow 2 (e + f).toNat : Nat) : ℚ) / (Nat.pow 2 (-(e + f)).toNat : Nat) ≤
      (1 - 2 ^ (-53 : Int)) * (l * 2 ^ f) := by
  have hgap := mul_zpow_le hk hlt
  have hright : (0 : ℚ) ≤ l * 2 ^ f := mul_nonneg (Nat.cast_nonneg _) (two_zpow_pos f).le
  rw [dyadic_quotient, zpow_add₀ (by norm_num), Nat.cast_mul]
  calc (k : ℚ) * l * (2 ^ e * 2 ^ f) = k * 2 ^ e * (l * 2 ^ f) := by ring
    _ ≤ (1 - 2 ^ (-53 : Int)) * (l * 2 ^ f) := mul_le_mul_of_nonneg_right hgap hright

/-- A number below one times a finite number is finite. -/
theorem isFinite_product (hpos : 0 < k * l) (hk : k < 2 ^ 53) (hlt : (k : ℚ) * 2 ^ e < 1) (hl : IsCanonical l f) :
    (ofDyadic false (k * l) (e + f)).isFinite = true := by
  unfold ofDyadic
  refine isFinite_ofRatio false (Nat.mul_pos hpos (Nat.pow_pos (by decide))) (Nat.pow_pos (by decide)) ?_
  have hl' : (l : ℚ) < 2 ^ 53 := by exact_mod_cast hl.1
  have hunit : (2 : ℚ) ^ f ≤ 2 ^ (971 : Int) := zpow_le_zpow_right₀ (by norm_num) hl.2.2.1
  have hgreatest : (l : ℚ) * 2 ^ f ≤ 2 ^ 53 * 2 ^ (971 : Int) :=
    mul_le_mul hl'.le hunit (two_zpow_pos f).le (by norm_num)
  calc ((k * l * Nat.pow 2 (e + f).toNat : Nat) : ℚ) / (Nat.pow 2 (-(e + f)).toNat : Nat)
      ≤ (1 - 2 ^ (-53 : Int)) * (l * 2 ^ f) := product_le hk hlt
    _ ≤ (1 - 2 ^ (-53 : Int)) * (2 ^ 53 * 2 ^ (971 : Int)) := mul_le_mul_of_nonneg_left hgreatest (by norm_num)
    _ = (1 - 2 ^ (-53 : Int)) * 2 ^ 53 * 2 ^ (971 : Int) := (mul_assoc _ _ _).symm
    _ < (2 ^ 53 - 1 / 2) * 2 ^ (971 : Int) := mul_lt_mul_of_pos_right (by norm_num) (two_zpow_pos _)

/-- The whole part of a number below one times a natural that was rounded lies below the natural. -/
theorem product_range {z : Nat} (hz : 0 < z) (hpos : 0 < k * l) (hk : k < 2 ^ 53) (hlt : (k : ℚ) * 2 ^ e < 1)
    (hcanonical : IsCanonical l f) (hl : (l : ℚ) * 2 ^ f = rounded z 1 * 2 ^ lastPlace z 1) :
    ∃ r, (ofDyadic false (k * l) (e + f)).toInteger = .ok r ∧ 0 ≤ r ∧ r < z := by
  have hshare := product_le (l := l) (f := f) hk hlt
  rw [hl] at hshare
  have hpow : 0 < k * l * Nat.pow 2 (e + f).toNat := Nat.mul_pos hpos (Nat.pow_pos (by decide))
  have hless := rounded_lt_of_share hz hpow (Nat.pow_pos (by decide)) hshare
  have hfinite := isFinite_product hpos hk hlt hcanonical
  unfold ofDyadic at hfinite ⊢
  rcases ofRatio_cases false hpow (Nat.pow 2 (-(e + f)).toNat) with ⟨m, e', canonical, heq, hvalue⟩ | hinfinite
  · obtain ⟨r, hr⟩ : ∃ r, (finite false m e' canonical).toInteger = .ok r := ⟨_, rfl⟩
    obtain ⟨h0, hle⟩ := toInteger_range hr
    rw [hvalue] at hle
    rw [heq]
    exact ⟨r, hr, h0, by exact_mod_cast lt_of_le_of_lt hle hless⟩
  · rw [hinfinite] at hfinite
    cases hfinite

end product

end Binary64

namespace RandomSource

variable {s : RandomSource} {u : Binary64} {n r : Int}

/-! ### Shares of integers -/

theorem exists_finite_of_inUnitInterval (hu : u.InUnitInterval) :
    ∃ negative m e h, u = .finite negative m e h := by
  cases u with
  | nan => cases hu.2
  | infinite negative =>
      cases negative with
      | true => cases hu.1
      | false => cases hu.2
  | finite negative m e h => exact ⟨negative, m, e, h, rfl⟩

/-- A positive integer that is not too large is rounded to a finite number. -/
theorem finite_of_ofInteger (hn : 0 < n) {x : Binary64} (h : Binary64.ofInteger n = .ok x) :
    ∃ m e canonical, x = .finite false m e canonical ∧
      (m : ℚ) * 2 ^ e = Binary64.rounded n.natAbs 1 * 2 ^ Binary64.lastPlace n.natAbs 1 := by
  have hnegative : decide (n < 0) = false := decide_eq_false (by omega)
  obtain ⟨rfl, hfinite⟩ := Binary64.isFinite_of_ofInteger h
  unfold Binary64.ofInt at hfinite ⊢
  rw [hnegative] at hfinite ⊢
  rcases Binary64.ofRatio_cases false (show 0 < n.natAbs by omega) 1 with hvalue | hinfinite
  · exact hvalue
  · rw [hinfinite] at hfinite
    cases hfinite

/-- The whole part of a number below one times a positive integer that is not too large lies below that. -/
theorem exists_scaled (hu : u.InUnitInterval) (hn : 0 < n) {x : Binary64} (hx : Binary64.ofInteger n = .ok x) :
    ∃ r, scaled u n = .ok r ∧ 0 ≤ r ∧ r < n := by
  have hscaled : scaled u n = (u * x).toInteger := by
    unfold scaled
    rw [hx]
    rfl
  obtain ⟨m', e', canonical', rfl, hvalue⟩ := finite_of_ofInteger hn hx
  obtain ⟨negative, m, e, canonical, rfl⟩ := exists_finite_of_inUnitInterval hu
  obtain ⟨hnegative, hlt⟩ := Binary64.inUnitInterval_finite_iff.mp hu
  have hproduct : Binary64.finite negative m e canonical * .finite false m' e' canonical' =
      .ofDyadic (negative != false) (m * m') (e + e') := rfl
  rw [hscaled, hproduct]
  rcases Nat.eq_zero_or_pos (m * m') with hzero | hpos
  · unfold Binary64.ofDyadic Binary64.ofRatio
    rw [hzero, Nat.zero_mul, if_pos rfl, Binary64.toInteger_zero]
    exact ⟨0, rfl, Int.le_refl 0, hn⟩
  · have hm : 0 < m := Nat.pos_of_mul_pos_right hpos
    cases negative with
    | true => exact absurd (hnegative rfl) hm.ne'
    | false =>
        rw [Binary64.toRat_finite, if_neg Bool.false_ne_true, one_mul] at hlt
        rw [bne_self_eq_false]
        obtain ⟨r, hr, h0, hless⟩ :=
          Binary64.product_range (show 0 < n.natAbs by omega) hpos canonical.1 hlt canonical' hvalue
        exact ⟨r, hr, h0, by omega⟩

/-- The whole part of a number below one times a positive integer lies below that. -/
theorem scaled_range (hu : u.InUnitInterval) (hn : 0 < n) (h : scaled u n = .ok r) : 0 ≤ r ∧ r < n := by
  obtain ⟨x, hx, _⟩ := exists_of_bind_eq_ok h
  obtain ⟨r', hr', hrange⟩ := exists_scaled hu hn hx
  cases h.symm.trans hr'
  exact hrange

/-! ### Proper sources -/

/-- Every number that the source gives, whatever was drawn before, lies from zero to below one. -/
def Proper (s : RandomSource) : Prop := ∀ s', s.Leads s' → s'.unit.1.InUnitInterval

namespace Proper

theorem of_leads (h : s.Proper) {s' : RandomSource} (hs : s.Leads s') : s'.Proper :=
  fun _ hs' => h _ (hs.trans hs')

/-- What a proper source draws below a positive bound lies below it. -/
theorem below_range (h : s.Proper) (hn : 0 < n) (hr : (s.below n).1 = .ok r) : 0 ≤ r ∧ r < n := by
  cases s with
  | twister t =>
      rw [below_twister] at hr
      cases hr
      have hlt := Twister.below_lt (show 0 < n.toNat by omega) t
      exact ⟨Int.natCast_nonneg _, Int.lt_toNat.mp hlt⟩
  | script draws next => exact scaled_range (h _ .refl) hn hr

/-- A proper source draws below every positive bound, unless it is a script and the bound is too large. -/
theorem exists_below (h : s.Proper) (hn : 0 < n) :
    (∃ r, (s.below n).1 = .ok r ∧ 0 ≤ r ∧ r < n) ∨
      (∃ e, (s.below n).1 = .error e ∧ Binary64.ofInteger n = .error e) ∧ ∀ t, s ≠ .twister t := by
  cases s with
  | twister t =>
      left
      rw [below_twister]
      exact ⟨_, rfl, h.below_range hn (by rw [below_twister])⟩
  | script draws next =>
      cases hx : Binary64.ofInteger n with
      | ok x => exact Or.inl (exists_scaled (h _ .refl) hn hx)
      | error e =>
          refine Or.inr ⟨⟨e, ?_, rfl⟩, fun _ => RandomSource.noConfusion⟩
          show scaled _ n = .error e
          unfold scaled
          rw [hx]
          rfl

end Proper

/-- What leaves a script leaves it at one of its draws. -/
theorem script_of_leads {draws : Array Binary64} {i : Nat} (hi : i < draws.size) (h : (script draws i).Leads s) :
    ∃ j, j < draws.size ∧ s = .script draws j := by
  induction h with
  | refl => exact ⟨i, hi, rfl⟩
  | number _ ih =>
      obtain ⟨j, hj, rfl⟩ := ih
      refine ⟨if j + 1 < draws.size then j + 1 else 0, ?_, rfl⟩
      split <;> omega
  | index n _ ih =>
      obtain ⟨j, hj, rfl⟩ := ih
      refine ⟨if j + 1 < draws.size then j + 1 else 0, ?_, rfl⟩
      split <;> omega

/-- A script gives the listed draws and no others. -/
theorem unit_mem_of_leads {draws : List Binary64} (hdraws : draws ≠ []) (h : (ofDraws draws).Leads s) :
    s.unit.1 ∈ draws := by
  obtain ⟨j, hj, rfl⟩ := script_of_leads (List.length_pos_iff.mpr hdraws) h
  show draws.toArray.getD j 0 ∈ draws
  rw [Array.getD_eq_getD_getElem?, Array.getElem?_eq_getElem hj, Option.getD_some]
  exact List.getElem_mem _

theorem proper_ofDraws {draws : List Binary64} (hdraws : draws ≠ []) (h : ∀ u ∈ draws, u.InUnitInterval) :
    (ofDraws draws).Proper :=
  fun _ hs => h _ (unit_mem_of_leads hdraws hs)

/-- The numbers of a twister are multiples of `2^-53` below one. -/
theorem inUnitInterval_twister (t : Twister) : t.unit.1.InUnitInterval := by
  unfold Twister.unit
  dsimp only
  apply Binary64.inUnitInterval_ofDyadic
  have ha := t.next.1.toNat_lt
  have hb := t.next.2.next.1.toNat_lt
  simp only [Nat.pow_eq]
  omega

theorem proper_twister (t : Twister) : (twister t).Proper := by
  intro s hs
  obtain ⟨t', rfl⟩ := exists_twister_of_leads hs
  rw [unit_twister]
  exact inUnitInterval_twister t'

end RandomSource

end GeoWorkload
