import GeoWorkload.Proofs.NearestNumbers
import GeoWorkload.Workload.Load

/-!
# Inserts per document

How many inserts follow a document is worked out in binary64: the records per document are rounded, the sum with a
half is rounded again, and its floor is taken.  As long as records and documents are no more than `2^51` together, this
comes to the exact quotient rounded with halves up, less one, and so it grows with the records and shrinks with the
documents (`insertsPerDocument_half_up`).

From below, the floor `n` and `n - 1/2` are numbers of 53 bits, which rounding does not cross (`sub_half_le_quotient`,
`le_sum`).  From above, the sum is a fraction of denominator `2t` and stays away from `n + 1` by `1 / 2t`; both
roundings together add less (`double_rounding_lt`).
-/

namespace GeoWorkload

open Binary64 (Rounds)

namespace HalfUp

/-! ### The rounded quotient -/

section quotient

variable {r t : Nat} {x : Binary64} (ht : 1 ≤ t) (hrange : r + t ≤ 2 ^ 51)
include ht hrange

theorem quotient_le : (r : ℚ) / t ≤ 2 ^ 51 := by
  have ht' : (1 : ℚ) ≤ t := by exact_mod_cast ht
  have hrange' : (r : ℚ) + t ≤ 2 ^ 51 := by exact_mod_cast hrange
  have hr : (0 : ℚ) ≤ r := Nat.cast_nonneg r
  rw [div_le_iff₀ (by positivity)]
  nlinarith

theorem quotient_le_greatest : (r : ℚ) / t ≤ 2 ^ (971 : Int) :=
  Binary64.le_greatest_of_le ((quotient_le ht hrange).trans (by norm_num))

/-- A quotient of the range is zero or lies far above the numbers of fewer bits. -/
theorem quotient_low : (r : ℚ) / t = 0 ∨ 2 ^ (-1022 : Int) ≤ (r : ℚ) / t := by
  have ht' : (1 : ℚ) ≤ t := by exact_mod_cast ht
  have hrange' : (r : ℚ) + t ≤ 2 ^ 51 := by exact_mod_cast hrange
  rcases Nat.eq_zero_or_pos r with rfl | hr
  · simp
  · right
    have hr' : (1 : ℚ) ≤ r := by exact_mod_cast hr
    calc (2 : ℚ) ^ (-1022 : Int) ≤ 2 ^ (-51 : Int) := zpow_le_zpow_right₀ (by norm_num) (by norm_num)
      _ ≤ r / t := by
        rw [le_div_iff₀ (by positivity)]
        norm_num
        linarith

variable (hx : Rounds (r / t) x)
include hx

theorem quotient_nonneg : 0 ≤ x.toRat := by
  have h := hx.le_toRat (quotient_le_greatest ht hrange) (k := 0) (e := 0) (by simp) (by simp)
  have hq : (0 : ℚ) ≤ r / t := by positivity
  simp only [Nat.cast_zero, zero_mul] at h
  exact h hq

theorem quotient_le_mul : x.toRat ≤ r / t * (1 + 2 ^ (-53 : Int)) :=
  hx.toRat_le_mul (quotient_le_greatest ht hrange) (quotient_low ht hrange)

theorem quotient_le_bound : x.toRat ≤ 2 ^ 52 := by
  have hquotient := quotient_le ht hrange
  have hmul := quotient_le_mul ht hrange hx
  norm_num at hmul hquotient ⊢
  linarith

/-- Half an integer below a floor of the range there is a number of 53 bits. -/
theorem sub_half_le_quotient {n : Nat} (hn : n * (2 * t) ≤ 2 * r + t) : (n : ℚ) - 1 / 2 ≤ x.toRat := by
  rcases Nat.eq_zero_or_pos n with rfl | hpos
  · have := quotient_nonneg ht hrange hx
    norm_num
    linarith
  · have ht' : (1 : ℚ) ≤ t := by exact_mod_cast ht
    have hn' : (n : ℚ) * (2 * t) ≤ 2 * r + t := by exact_mod_cast hn
    have hcast : ((2 * n - 1 : Nat) : ℚ) = 2 * n - 1 := by
      rw [Nat.cast_sub (by omega)]
      push_cast
      ring
    have hcount : 2 * n ≤ 2 * r + 1 := by nlinarith
    have hhalf : ((2 * n - 1 : Nat) : ℚ) * 2 ^ (-1 : Int) ≤ r / t := by
      rw [hcast, le_div_iff₀ (by positivity)]
      norm_num
      linarith
    have hbelow := hx.le_toRat (quotient_le_greatest ht hrange) (by omega) (by norm_num) hhalf
    rw [hcast] at hbelow
    norm_num at hbelow
    linarith

end quotient

/-! ### The rounded sum -/

theorem rounds_add_half {m : Nat} {e : Int} {h : Binary64.IsCanonical m e}
    (hx : 0 ≤ (Binary64.finite false m e h).toRat) :
    Rounds ((Binary64.finite false m e h).toRat + 1 / 2) (.finite false m e h + .half) := by
  rw [← Binary64.toRat_half, Binary64.half_eq]
  apply Binary64.rounds_add
  rw [← Binary64.half_eq, Binary64.toRat_half]
  linarith

section sum

variable {x y : Binary64} (hx : 0 ≤ x.toRat) (hx' : x.toRat ≤ 2 ^ 52) (hy : Rounds (x.toRat + 1 / 2) y)

include hx' in
theorem sum_le_greatest : x.toRat + 1 / 2 ≤ 2 ^ (971 : Int) := by
  apply Binary64.le_greatest_of_le
  norm_num at hx' ⊢
  linarith

include hx hx' hy

theorem sum_le_mul : y.toRat ≤ (x.toRat + 1 / 2) * (1 + 2 ^ (-53 : Int)) := by
  refine hy.toRat_le_mul (sum_le_greatest hx') (Or.inr ?_)
  calc (2 : ℚ) ^ (-1022 : Int) ≤ 2 ^ (-1 : Int) := zpow_le_zpow_right₀ (by norm_num) (by norm_num)
    _ ≤ x.toRat + 1 / 2 := by
      norm_num
      exact hx

omit hx in
theorem le_sum {n : Nat} (hn : n ≤ 2 ^ 53) (h : (n : ℚ) ≤ x.toRat + 1 / 2) : (n : ℚ) ≤ y.toRat := by
  have hbelow := hy.le_toRat (sum_le_greatest hx') hn (e := 0) (by norm_num)
  simp only [zpow_zero, mul_one] at hbelow
  exact hbelow h

end sum

/-! ### Both roundings -/

section both

variable {r t : Nat} (ht : 1 ≤ t) (hrange : r + t ≤ 2 ^ 51)
include ht hrange

/-- Two roundings of shares of `2^-53` add less than the distance of the sum from the next integer. -/
theorem double_rounding_lt {q s n : ℚ} (hq : q ≤ r / t * (1 + 2 ^ (-53 : Int)))
    (hs : s ≤ (q + 1 / 2) * (1 + 2 ^ (-53 : Int))) (hgap : (2 * r + t + 1 : ℚ) ≤ n * (2 * t)) : s < n := by
  have ht' : (1 : ℚ) ≤ t := by exact_mod_cast ht
  have hrange' : (r : ℚ) + t ≤ 2 ^ 51 := by exact_mod_cast hrange
  have hquotient : q * t ≤ r * (1 + 2 ^ (-53 : Int)) := by
    have hscaled := mul_le_mul_of_nonneg_right hq (zero_le_one.trans ht')
    rwa [mul_right_comm, div_mul_cancel₀ _ (by positivity)] at hscaled
  have hsum := mul_le_mul_of_nonneg_right hs (show (0 : ℚ) ≤ 2 * t by positivity)
  have hless : s * (2 * t) < n * (2 * t) := by
    norm_num at hquotient hsum
    linarith
  exact lt_of_mul_lt_mul_right hless (by positivity)

/-- The rounded sum of the rounded quotient and a half has the floor of the exact sum. -/
theorem floor_sum {x y : Binary64} (hx : Rounds (r / t) x) (hy : Rounds (x.toRat + 1 / 2) y) :
    ⌊y.toRat⌋ = ((2 * r + t) / (2 * t) : Nat) := by
  have hx0 := quotient_nonneg ht hrange hx
  have hxhigh := quotient_le_mul ht hrange hx
  have hx52 := quotient_le_bound ht hrange hx
  have hpos : 0 < 2 * t := by omega
  have hlow : (2 * r + t) / (2 * t) * (2 * t) ≤ 2 * r + t := Nat.div_mul_le_self _ _
  have hhigh : 2 * r + t + 1 ≤ ((2 * r + t) / (2 * t) + 1) * (2 * t) := by
    have := Nat.div_add_mod (2 * r + t) (2 * t)
    have := Nat.mod_lt (2 * r + t) hpos
    nlinarith
  generalize (2 * r + t) / (2 * t) = n at hlow hhigh ⊢
  have hcount : 2 * n ≤ 2 * r + 1 := by nlinarith
  rw [Int.floor_eq_iff]
  constructor
  · have hhalf := sub_half_le_quotient ht hrange hx hlow
    have hsum := le_sum hx52 hy (n := n) (by omega) (by linarith)
    simpa using hsum
  · have hless := double_rounding_lt ht hrange (n := n + 1) hxhigh (sum_le_mul hx0 hx52 hy) (by exact_mod_cast hhigh)
    simpa using hless

end both

/-! ### The exact count -/

section count

variable {r t : Int} (hr : 0 ≤ r) (ht : 1 ≤ t)
include ht

theorem count_mono {r' : Int} (h : r ≤ r') : (2 * r + t) / (2 * t) ≤ (2 * r' + t) / (2 * t) :=
  Int.ediv_le_ediv (by omega) (by omega)

include hr in
theorem count_anti {t' : Int} (h : t ≤ t') : (2 * r + t') / (2 * t') ≤ (2 * r + t) / (2 * t) := by
  have hbelow : (2 * r + t') / (2 * t') * (2 * t') ≤ 2 * r + t' := Int.ediv_mul_le _ (by omega)
  rw [Int.le_ediv_iff_mul_le (by omega)]
  generalize (2 * r + t') / (2 * t') = n at hbelow ⊢
  rcases le_or_gt n 0 with hneg | hpos
  · nlinarith
  · nlinarith

end count

end HalfUp

section range

variable {records total : Int} (hrecords : 0 ≤ records) (htotal : 1 ≤ total) (hrange : records + total ≤ 2 ^ 51)
include hrecords htotal hrange

theorem insertsPerDocument_eq :
    insertsPerDocument records total = .ok (max 0 ((2 * records + total) / (2 * total) - 1)) := by
  obtain ⟨r, rfl⟩ := Int.eq_ofNat_of_zero_le hrecords
  obtain ⟨t, rfl⟩ := Int.eq_ofNat_of_zero_le (show 0 ≤ total by omega)
  have ht : 1 ≤ t := by omega
  have hrange' : r + t ≤ 2 ^ 51 := by omega
  obtain ⟨m, e, canonical, hratio, hx⟩ := Binary64.exists_ratio (by omega) (HalfUp.quotient_le_greatest ht hrange')
  have hx0 := HalfUp.quotient_nonneg ht hrange' hx
  have hx52 := HalfUp.quotient_le_bound ht hrange' hx
  have hy := HalfUp.rounds_add_half hx0
  obtain ⟨m', e', canonical', hsum⟩ := hy.exists_finite (HalfUp.sum_le_greatest hx52)
  have hfloor := HalfUp.floor_sum ht hrange' hx hy
  rw [hsum] at hfloor
  unfold insertsPerDocument
  rw [if_neg (by omega), Int.toNat_natCast, hratio]
  simp [Except.map, hsum, Binary64.floor?_eq_some, hfloor]

/-- As long as records and documents are no more than `2^51` together, the inserts per document are the exact quotient
with halves rounded up, less the document itself; they are no fewer for more records and no more for more documents. -/
theorem insertsPerDocument_half_up :
    insertsPerDocument records total = .ok (max 0 ((2 * records + total) / (2 * total) - 1)) ∧
    (∀ records', records ≤ records' → records' + total ≤ 2 ^ 51 → ∃ n n', insertsPerDocument records total = .ok n ∧
      insertsPerDocument records' total = .ok n' ∧ n ≤ n') ∧
    ∀ total', total ≤ total' → records + total' ≤ 2 ^ 51 → ∃ n n', insertsPerDocument records total = .ok n ∧
      insertsPerDocument records total' = .ok n' ∧ n' ≤ n := by
  have heq := insertsPerDocument_eq hrecords htotal hrange
  refine ⟨heq, fun records' hle hrange' => ?_, fun total' hle hrange' => ?_⟩
  · have hmono := HalfUp.count_mono htotal hle
    have heq' := insertsPerDocument_eq (hrecords.trans hle) htotal hrange'
    exact ⟨_, _, heq, heq', by omega⟩
  · have hanti := HalfUp.count_anti hrecords htotal hle
    have heq' := insertsPerDocument_eq hrecords (htotal.trans hle) hrange'
    exact ⟨_, _, heq, heq', by omega⟩

end range

/-- Two and a half records for each document, rounded up; as many records and as many documents as the range allows. -/
theorem insertsPerDocument_half_up_widest :
    ((0 : Int) ≤ 10 ∧ (1 : Int) ≤ 4 ∧ (10 : Int) + 4 ≤ 2 ^ 51) ∧ insertsPerDocument 10 4 = .ok 2 ∧
      ((10 : Int) ≤ 2251799813685244 ∧ (2251799813685244 : Int) + 4 ≤ 2 ^ 51 ∧
        insertsPerDocument 2251799813685244 4 = .ok 562949953421310 ∧
        ∃ n n', insertsPerDocument 10 4 = .ok n ∧ insertsPerDocument 2251799813685244 4 = .ok n' ∧ n ≤ n') ∧
      (4 : Int) ≤ 2251799813685238 ∧ (10 : Int) + 2251799813685238 ≤ 2 ^ 51 ∧
        insertsPerDocument 10 2251799813685238 = .ok 0 ∧
        ∃ n n', insertsPerDocument 10 4 = .ok n ∧ insertsPerDocument 10 2251799813685238 = .ok n' ∧ n' ≤ n := by
  obtain ⟨heq, hrecords, htotals⟩ := @insertsPerDocument_half_up 10 4 (by decide) (by decide) (by decide)
  obtain ⟨hmost, _⟩ := @insertsPerDocument_half_up 2251799813685244 4 (by decide) (by decide) (by decide)
  obtain ⟨hleast, _⟩ := @insertsPerDocument_half_up 10 2251799813685238 (by decide) (by decide) (by decide)
  exact ⟨by decide, heq, ⟨by decide, by decide, hmost, hrecords _ (by decide) (by decide)⟩,
    by decide, by decide, hleast, htotals _ (by decide) (by decide)⟩

end GeoWorkload
