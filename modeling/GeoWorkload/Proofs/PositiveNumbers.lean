import GeoWorkload.Proofs.NearestNumbers

/-!
# Positive numbers

A number of positive value is finite (`Binary64.exists_of_toRat_pos`).  Quotients of such numbers are the nearest numbers
to the quotients of their values, and so are positive sums and differences (`Binary64.rounds_div`,
`Binary64.rounds_add_of_isFinite`, `Binary64.rounds_sub`).  Where the powers of a platform are moderate, those of positive
numbers can be taken, and none of them lies beyond its base (`Binary64.exists_power`).  Integers up to one that is not too
large are not too large (`Binary64.ofInteger_of_le`).
-/

namespace GeoWorkload

namespace Binary64

/-! ### Positive numbers -/

theorem toRat_finite_false {m : Nat} {e : Int} (canonical : IsCanonical m e) :
    (finite false m e canonical).toRat = m * 2 ^ e := by
  rw [toRat_finite, if_neg Bool.false_ne_true, one_mul]

/-- A number of positive value is finite. -/
theorem exists_of_toRat_pos {x : Binary64} (h : 0 < x.toRat) :
    ∃ m e canonical, 0 < m ∧ x = .finite false m e canonical := by
  cases x with
  | infinite negative => simp [toRat] at h
  | nan => simp [toRat] at h
  | finite negative m e canonical =>
      have he := two_zpow_pos e
      rw [toRat_finite] at h
      cases negative with
      | true =>
          have : (0 : ℚ) ≤ m * 2 ^ e := by positivity
          simp only [if_true] at h
          linarith
      | false =>
          refine ⟨m, e, canonical, Nat.pos_of_ne_zero ?_, rfl⟩
          rintro rfl
          simp at h

theorem isPositive_iff_toRat_pos {x : Binary64} (hx : x.isFinite = true) : x.isPositive = true ↔ 0 < x.toRat := by
  constructor
  · intro h
    rcases isPositive_iff.mp h with rfl | ⟨m, e, canonical, hm, rfl⟩
    · cases hx
    · rw [toRat_finite_false]
      exact mul_pos (by exact_mod_cast hm) (two_zpow_pos e)
  · intro h
    obtain ⟨m, e, canonical, hm, rfl⟩ := exists_of_toRat_pos h
    exact isPositive_finite_iff.mpr ⟨rfl, hm⟩

section positive

variable {x y : Binary64} (hx : 0 < x.toRat)
include hx

theorem isFinite_of_toRat_pos : x.isFinite = true := by
  obtain ⟨m, e, canonical, _, rfl⟩ := exists_of_toRat_pos hx
  rfl

theorem isPositive_of_toRat_pos : x.isPositive = true :=
  (isPositive_iff_toRat_pos (isFinite_of_toRat_pos hx)).mpr hx

theorem isNegative_of_toRat_pos : x.isNegative = false := by
  obtain ⟨m, e, canonical, _, rfl⟩ := exists_of_toRat_pos hx
  rw [← Bool.not_eq_true, isNegative_finite_iff]
  exact fun h => Bool.false_ne_true h.1

theorem eq_zero_of_toRat_pos : x.eq 0 = false := by
  have hzero : (0 : Binary64) = zero false := rfl
  have hpositive : (zero false).lt x = true := isPositive_of_toRat_pos hx
  rw [eq, hzero, hpositive]
  simp

/-- No finite number comes to `2^1024`. -/
theorem toRat_lt_of_pos : x.toRat < 2 ^ (1024 : Int) := by
  obtain ⟨m, e, canonical, _, rfl⟩ := exists_of_toRat_pos hx
  have hm : (m : ℚ) < 2 ^ (53 : Int) := by exact_mod_cast canonical.1
  have he := canonical.2.2.1
  rw [toRat_finite_false]
  calc (m : ℚ) * 2 ^ e < 2 ^ (53 : Int) * 2 ^ e := mul_lt_mul_of_pos_right hm (two_zpow_pos e)
    _ = 2 ^ (53 + e) := (zpow_add₀ (by norm_num) _ _).symm
    _ ≤ 2 ^ (1024 : Int) := zpow_le_zpow_right₀ (by norm_num) (by omega)

/-- The quotient of positive numbers is the nearest number to that of their values. -/
theorem rounds_div (hy : 0 < y.toRat) : Rounds (x.toRat / y.toRat) (x / y) := by
  obtain ⟨m, e, canonical, hm, rfl⟩ := exists_of_toRat_pos hx
  obtain ⟨n, f, canonical', hn, rfl⟩ := exists_of_toRat_pos hy
  have hquotient : (finite false m e canonical / finite false n f canonical' : Binary64) =
      ofRatio false (m * Nat.pow 2 (e - f).toNat) (n * Nat.pow 2 (-(e - f)).toNat) := by
    show div _ _ = _
    rw [div, if_neg hn.ne']
    rfl
  have hdyadic := dyadic_quotient m (e - f)
  have hpow : 0 < Nat.pow 2 (-(e - f)).toNat := Nat.pow_pos (by decide)
  refine ⟨_, _, Nat.mul_pos hn hpow, ?_, hquotient⟩
  generalize Nat.pow 2 (-(e - f)).toNat = d at hdyadic ⊢
  generalize m * Nat.pow 2 (e - f).toNat = k at hdyadic ⊢
  have hf := (two_zpow_pos f).ne'
  have hn' : (n : ℚ) ≠ 0 := by exact_mod_cast hn.ne'
  rw [toRat_finite_false, toRat_finite_false, Nat.cast_mul]
  calc (m : ℚ) * 2 ^ e / (n * 2 ^ f) = m * 2 ^ (e - f) / n := by
        rw [zpow_sub₀ (by norm_num)]
        field_simp
    _ = k / (n * d) := by rw [← hdyadic, div_div, mul_comm (d : ℚ)]

theorem divide_of_pos (y : Binary64) : divide y x = .ok (y / x) := by
  rw [divide, eq_zero_of_toRat_pos hx]
  rfl

end positive

/-- A positive sum of finite numbers is the nearest number to that of their values. -/
theorem rounds_add_of_isFinite {x y : Binary64} (hx : x.isFinite = true) (hy : y.isFinite = true)
    (hsum : 0 < x.toRat + y.toRat) : Rounds (x.toRat + y.toRat) (x + y) := by
  cases x with
  | infinite negative => cases hx
  | nan => cases hx
  | finite s m e h =>
      cases y with
      | infinite negative => cases hy
      | nan => cases hy
      | finite t n f h' => exact rounds_add hsum

/-- The positive difference of finite numbers is the nearest number to that of their values. -/
theorem rounds_sub {x y : Binary64} (hx : x.isFinite = true) (hy : y.isFinite = true) (hlt : y.toRat < x.toRat) :
    Rounds (x.toRat - y.toRat) (x - y) := by
  have hsum : 0 < x.toRat + y.neg.toRat := by
    rw [toRat_neg]
    linarith
  rw [sub_eq_add_neg, ← toRat_neg]
  exact rounds_add_of_isFinite hx ((isFinite_neg y).trans hy) hsum

theorem toRat_two : (2 : Binary64).toRat = 2 := by
  have htwo : (2 : Binary64) = .finite false (Nat.pow 2 52) (-51) (by decide) := by decide +kernel
  rw [htwo, toRat_finite_false]
  norm_num

/-- Two divided by a number from two on is not rounded to zero. -/
theorem toRat_two_div_pos {x : Binary64} (hx : 2 ≤ x.toRat) : 0 < (2 / x).toRat := by
  have hx0 : 0 < x.toRat := by linarith
  have hrounds := rounds_div (x := 2) (by rw [toRat_two]; norm_num) hx0
  rw [toRat_two] at hrounds
  have hle : 2 / x.toRat ≤ 1 := (div_le_one₀ hx0).mpr hx
  have hge : (2 : ℚ) ^ 51 * 2 ^ (-1074 : Int) ≤ 2 / x.toRat := by
    have hlt := toRat_lt_of_pos hx0
    rw [le_div_iff₀ hx0]
    calc (2 : ℚ) ^ 51 * 2 ^ (-1074 : Int) * x.toRat
        ≤ 2 ^ 51 * 2 ^ (-1074 : Int) * 2 ^ (1024 : Int) := mul_le_mul_of_nonneg_left hlt.le (by positivity)
      _ = 2 := by
        rw [mul_assoc, ← zpow_add₀ (by norm_num)]
        norm_num
  have hkept := hrounds.le_toRat (le_greatest_of_le (by linarith)) (k := 2 ^ 51) (e := -1074) (by norm_num) (by omega)
    (by exact_mod_cast hge)
  exact lt_of_lt_of_le (by positivity) hkept

/-! ### Orders -/

theorem le_iff_of_isFinite {x y : Binary64} (hx : x.isFinite = true) (hy : y.isFinite = true) :
    x.le y = true ↔ x.toRat ≤ y.toRat := by
  cases x with
  | infinite negative => cases hx
  | nan => cases hx
  | finite s m e h =>
      cases y with
      | infinite negative => cases hy
      | nan => cases hy
      | finite t n f h' =>
          have hlt := @lt_finite_iff s t m n e f h h'
          have hgt := @lt_finite_iff t s n m f e h' h
          rw [← not_lt, ← hgt, le, eq]
          by_cases h₁ : (finite s m e h).lt (finite t n f h') = true
          · have h₂ := not_lt_of_gt (hlt.mp h₁)
            rw [← hgt] at h₂
            simp [h₁, h₂]
          · simp [h₁, isNaN]

/-- What lies between finite numbers is finite. -/
theorem isFinite_of_le_of_le {x y z : Binary64} (hx : x.isFinite = true) (hz : z.isFinite = true)
    (hxy : x.le y = true) (hyz : y.le z = true) : y.isFinite = true := by
  cases y with
  | finite negative m e canonical => rfl
  | nan =>
      cases x <;> simp [le, lt, eq, isNaN] at hxy
  | infinite negative =>
      cases x with
      | infinite s => cases hx
      | nan => cases hx
      | finite s m e h =>
          cases z with
          | infinite s => cases hz
          | nan => cases hz
          | finite t n f h' => cases negative <;> simp [le, lt, eq, isNaN] at hxy hyz

/-! ### Powers -/

section power

variable [Powers] (hpowers : Powers.Moderate) {x y : Binary64} (hx : 0 < x.toRat) (hy : 0 < y.toRat)
  (hone : y.toRat ≤ 1)
include hpowers hx hy hone

/-- The power of a positive number to an exponent above zero, but at most one, can be taken.  It lies between one and
its base where that is not below one. -/
theorem exists_power : ∃ p, x.power y = .ok p ∧ (1 ≤ x.toRat → 1 ≤ p.toRat ∧ p.toRat ≤ x.toRat) := by
  have hfinite := isFinite_of_toRat_pos hx
  have hle : y.le 1 = true := by
    rw [le_iff_of_isFinite (isFinite_of_toRat_pos hy) rfl, toRat_one]
    exact hone
  have hmoderate := hpowers x y hfinite (isPositive_of_toRat_pos hx) (isPositive_of_toRat_pos hy) hle
  rw [liesBetween, Bool.or_eq_true, Bool.and_eq_true, Bool.and_eq_true] at hmoderate
  have hraised : (Powers.raise x y).isFinite = true := by
    obtain ⟨hlow, hhigh⟩ | ⟨hlow, hhigh⟩ := hmoderate
    · exact isFinite_of_le_of_le hfinite rfl hlow hhigh
    · exact isFinite_of_le_of_le rfl hfinite hlow hhigh
  refine ⟨Powers.raise x y, ?_, fun hbase => ?_⟩
  · rw [power, isNegative_of_toRat_pos hx, isNegative_of_toRat_pos hy, Bool.and_false, if_neg Bool.false_ne_true,
      Bool.and_false, Bool.false_and, Bool.false_and, if_neg Bool.false_ne_true]
    generalize Powers.raise x y = p at hraised
    cases p with
    | finite negative m e canonical => cases (x.isFinite && y.isFinite) <;> rfl
    | infinite negative => cases hraised
    | nan => cases hraised
  · have honeFinite : (1 : Binary64).isFinite = true := rfl
    rw [le_iff_of_isFinite hfinite hraised, le_iff_of_isFinite hraised honeFinite, le_iff_of_isFinite honeFinite hraised,
      le_iff_of_isFinite hraised hfinite, toRat_one] at hmoderate
    obtain ⟨hlow, hhigh⟩ | h := hmoderate
    · exact ⟨by linarith, by linarith⟩
    · exact h

end power

/-! ### Integers -/

/-- A positive integer that is rounded to a finite number lies less than half a unit above the greatest one. -/
theorem lt_of_isFinite_ofRatio {n : Nat} (hn : 0 < n) (h : (ofRatio false n 1).isFinite = true) :
    ((n : ℚ) / (1 : Nat)) < (2 ^ 53 - 1 / 2) * 2 ^ (971 : Int) := by
  by_contra hge
  rw [not_lt] at hge
  obtain ⟨k, hk⟩ : ∃ k : Nat, k + 1 = 2 ^ 53 := ⟨2 ^ 53 - 1, by norm_num⟩
  have hk' : (k : ℚ) + 1 = 2 ^ 53 := by exact_mod_cast hk
  rw [← hk', show (k : ℚ) + 1 - 1 / 2 = k + 1 / 2 by ring] at hge
  have hround := succ_le_rounded_mul hn Nat.one_pos (by omega) (by omega) (by omega) (by omega) hge
  rcases ofRatio_cases false hn 1 with ⟨m, e, canonical, heq, hvalue⟩ | hinfinite
  · have hm : (m : ℚ) < 2 ^ 53 := by exact_mod_cast canonical.1
    have he : (2 : ℚ) ^ e ≤ 2 ^ (971 : Int) := zpow_le_zpow_right₀ (by norm_num) canonical.2.2.1
    have hless : (m : ℚ) * 2 ^ e < 2 ^ 53 * 2 ^ (971 : Int) :=
      mul_lt_mul hm he (two_zpow_pos e) (by norm_num)
    rw [hvalue, ← hk'] at hless
    exact absurd hround (not_le.mpr hless)
  · rw [hinfinite] at h
    cases h

theorem ofInteger_of_isFinite {z : Int} (h : (ofInt z).isFinite = true) : ofInteger z = .ok (ofInt z) := by
  unfold ofInteger ofInt?
  dsimp only
  rw [if_pos h]

theorem ofInteger_error {z : Int} {e : NumberError} (h : ofInteger z = .error e) : e = .integerTooLarge := by
  unfold ofInteger at h
  split at h
  · cases h
  · exact (Except.error.inj h).symm

/-- An integer below one that is not too large is not too large either. -/
theorem ofInteger_of_le {i z : Int} (hi : 1 ≤ i) (hle : i ≤ z) {x : Binary64} (h : ofInteger z = .ok x) :
    ∃ y, ofInteger i = .ok y := by
  obtain ⟨rfl, hfinite⟩ := isFinite_of_ofInteger h
  refine ⟨_, ofInteger_of_isFinite ?_⟩
  unfold ofInt at hfinite ⊢
  rw [decide_eq_false (by omega)] at hfinite ⊢
  have hlt := lt_of_isFinite_ofRatio (show 0 < z.natAbs by omega) hfinite
  refine isFinite_ofRatio false (by omega) Nat.one_pos (lt_of_le_of_lt ?_ hlt)
  rw [Nat.cast_one, div_one, div_one]
  exact_mod_cast (show i.natAbs ≤ z.natAbs by omega)

/-- The number nearest to an integer is not below any smaller integer of 53 bits. -/
theorem le_toRat_of_ofInteger {z : Int} (hz : 0 < z) {k : Nat} (hk : k ≤ 2 ^ 53) (hle : (k : Int) ≤ z) {x : Binary64}
    (h : ofInteger z = .ok x) : (k : ℚ) ≤ x.toRat := by
  obtain ⟨m, e, canonical, rfl, hvalue⟩ := RandomSource.finite_of_ofInteger hz h
  have hround := le_rounded_mul (n := z.natAbs) (k := k) (e := 0) (by omega) Nat.one_pos hk (by omega) (by
    rw [zpow_zero, mul_one, Nat.cast_one, div_one]
    exact_mod_cast (show k ≤ z.natAbs by omega))
  rw [zpow_zero, mul_one] at hround
  rwa [toRat_finite_false, hvalue]

end Binary64

/-! ### Listed powers -/

namespace Powers

/-- Powers that are listed for some bases and exponents, and the base itself for all others. -/
abbrev listed (entries : List ((Binary64 × Binary64) × Binary64)) : Powers where
  raise x y := ((entries.find? fun entry => entry.1 = (x, y)).map (·.2)).getD x

/-- Listed powers are moderate if those with exponents of at most one are. -/
theorem moderate_listed {entries : List ((Binary64 × Binary64) × Binary64)}
    (h : (entries.all fun entry => !(entry.1.2.le 1) || entry.2.liesBetween entry.1.1 1) = true) :
    (listed entries).Moderate := by
  intro x y hfinite _ _ hle
  show (((entries.find? fun entry => entry.1 = (x, y)).map (·.2)).getD x).liesBetween x 1 = true
  cases hfound : entries.find? fun entry => entry.1 = (x, y) with
  | some entry =>
      have hkey := List.find?_some hfound
      have hentry := List.all_eq_true.mp h _ (List.mem_of_find?_eq_some hfound)
      rw [of_decide_eq_true hkey, hle] at hentry
      exact hentry
  | none =>
      have hself : x.le x = true := (Binary64.le_iff_of_isFinite hfinite hfinite).mpr (le_refl _)
      have hone := le_total x.toRat (1 : Binary64).toRat
      rw [← Binary64.le_iff_of_isFinite hfinite rfl, ← Binary64.le_iff_of_isFinite rfl hfinite] at hone
      rw [Option.map_none, Option.getD_none, Binary64.liesBetween, hself, Bool.true_and, Bool.and_true]
      exact Bool.or_eq_true_iff.mpr hone

end Powers

end GeoWorkload
