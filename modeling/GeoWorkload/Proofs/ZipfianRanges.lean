import GeoWorkload.Proofs.PositiveNumbers

/-!
# Making zipfian ranges

A zipfian range is made by arithmetic that could fail in many places: powers, quotients of numbers that may be zero, a
sum of as many terms as there are items.  None of them does fail, whatever the exponent between zero and one is, as long
as the powers of the platform stay between their base and one where the exact powers do (`Powers.Moderate`).  Every
term of the sum then lies above zero and not above one (`exists_term`), so that the sum never falls below its first term
and never grows beyond `2^54`, where terms are rounded away (`sum_bounds`, `zetaFrom_grows`).  From three items on, the
sum lies so far above that of two terms that one less their quotient is not zero (`exists_zetas`, `exists_eta`).

So a range from one to a positive integer is made exactly if the integer does not lie beyond the greatest binary64
number (`ofRange_of_ofInteger`, `ofRange_of_ofInteger_error`).
-/

namespace GeoWorkload

namespace Zipfian

/-- An exponent that ranges take lies strictly between zero and one. -/
theorem toRat_theta {theta : Binary64} (htheta : (theta.isPositive && theta.lt 1) = true) :
    0 < theta.toRat ∧ theta.toRat < 1 := by
  obtain ⟨hpositive, hlt⟩ := Bool.and_eq_true_iff.mp htheta
  rcases Binary64.isPositive_iff.mp hpositive with rfl | ⟨m, e, canonical, _, rfl⟩
  · cases hlt
  · rw [Binary64.one_eq, Binary64.lt_finite_iff, ← Binary64.one_eq, Binary64.toRat_one] at hlt
    exact ⟨(Binary64.isPositive_iff_toRat_pos rfl).mp hpositive, hlt⟩

/-- One less an exponent of a range is an exponent above zero, but at most one. -/
theorem toRat_one_sub {theta : Binary64} (h0 : 0 < theta.toRat) (h1 : theta.toRat < 1) :
    0 < (1 - theta).toRat ∧ (1 - theta).toRat ≤ 1 := by
  have hrounds := Binary64.rounds_sub (x := 1) rfl (Binary64.isFinite_of_toRat_pos h0)
    (by rwa [Binary64.toRat_one])
  have hgap : theta.toRat ≤ 1 - 2 ^ (-53 : Int) := by
    obtain ⟨m, e, canonical, _, rfl⟩ := Binary64.exists_of_toRat_pos h0
    rw [Binary64.toRat_finite_false] at h1 ⊢
    exact Binary64.mul_zpow_le canonical.1 h1
  rw [Binary64.toRat_one] at hrounds
  have hq : 1 - theta.toRat ≤ 2 ^ (971 : Int) := Binary64.le_greatest_of_le (by linarith)
  have hlow := hrounds.le_toRat hq (k := 1) (e := -53) (by norm_num) (by omega) (by norm_num at hgap ⊢; linarith)
  have hhigh := hrounds.toRat_le hq (k := 2 ^ 52) (e := -52) (by omega) (by omega) (by omega)
    (by norm_num at h0 ⊢; linarith)
  norm_num at hlow hhigh
  exact ⟨by linarith, hhigh⟩

/-- A sum from one on to which a term is added does not fall, nor does it grow beyond `2^54`. -/
theorem sum_bounds {total t : Binary64} (hlow : 1 ≤ total.toRat) (hhigh : total.toRat ≤ 2 ^ 54) (ht0 : 0 < t.toRat)
    (ht1 : t.toRat ≤ 1) : total.toRat ≤ (total + t).toRat ∧ (total + t).toRat ≤ 2 ^ 54 := by
  have hpos : 0 < total.toRat := by linarith
  have hrounds := Binary64.rounds_add_of_isFinite (Binary64.isFinite_of_toRat_pos hpos)
    (Binary64.isFinite_of_toRat_pos ht0) (by linarith)
  have hq : total.toRat + t.toRat ≤ 2 ^ (971 : Int) := by
    have hpow : (2 : ℚ) ^ (55 : Int) ≤ 2 ^ (971 : Int) := zpow_le_zpow_right₀ (by norm_num) (by norm_num)
    refine le_trans ?_ hpow
    norm_num at hhigh ⊢
    linarith
  constructor
  · obtain ⟨m, e, canonical, _, rfl⟩ := Binary64.exists_of_toRat_pos hpos
    rw [Binary64.toRat_finite_false] at hrounds hq ⊢
    refine hrounds.le_toRat hq (Nat.le_of_lt ?_) canonical.2.1 (by linarith)
    exact canonical.1
  · have := hrounds.toRat_le hq (k := 2 ^ 52) (e := 2) (by omega) (by omega) (by omega)
      (by norm_num at hhigh ⊢; linarith)
    norm_num at this ⊢
    exact this

/-- One less the quotient of two sums is positive, where the smaller one lies an eighth below the other. -/
theorem toRat_divisor_pos {zetaN zetaTwo : Binary64} (hlow : 1 ≤ zetaTwo.toRat) (hhigh : zetaTwo.toRat ≤ 2)
    (hgap : zetaTwo.toRat + 1 / 8 ≤ zetaN.toRat) : 0 < (1 - zetaTwo / zetaN).toRat := by
  have hN : 0 < zetaN.toRat := by linarith
  have hrounds := Binary64.rounds_div (x := zetaTwo) (by linarith) hN
  have hquotient : zetaTwo.toRat / zetaN.toRat ≤ 1 - 1 / 32 := by
    rw [div_le_iff₀ hN]
    linarith
  have hgreatest : zetaTwo.toRat / zetaN.toRat ≤ 2 ^ (971 : Int) := Binary64.le_greatest_of_le (by linarith)
  have hbelow := hrounds.toRat_le hgreatest (k := 2 ^ 53 - 2 ^ 47) (e := -53) (by omega) (by omega) (by omega)
    (lt_of_le_of_lt hquotient (by norm_num))
  obtain ⟨m, e, canonical, hfinite⟩ := hrounds.exists_finite hgreatest
  have hlt : (zetaTwo / zetaN).toRat ≤ 1 - 1 / 64 := hbelow.trans (by norm_num)
  have hnonneg : 0 ≤ (zetaTwo / zetaN).toRat := by
    rw [hfinite, Binary64.toRat_finite_false]
    exact mul_nonneg m.cast_nonneg (Binary64.two_zpow_pos e).le
  have hsub := Binary64.rounds_sub (x := 1) (y := zetaTwo / zetaN) rfl (by rw [hfinite]; rfl)
    (by rw [Binary64.toRat_one]; linarith)
  rw [Binary64.toRat_one] at hsub
  have hkept := hsub.le_toRat (Binary64.le_greatest_of_le (by linarith)) (k := 1) (e := -6) (by norm_num)
    (by omega) (by norm_num; linarith)
  norm_num at hkept
  linarith

section zeta

variable [Powers] (hpowers : Powers.Moderate) {theta : Binary64} (h0 : 0 < theta.toRat) (h1 : theta.toRat < 1)

include hpowers h0 h1

/-- The sum goes on from each integer that is not too large with a term above zero that is at most one. -/
theorem exists_term {i : Nat} (hi : 1 ≤ i) {x : Binary64} (hx : Binary64.ofInteger i = .ok x) :
    ∃ t : Binary64, (∀ count total, zetaFrom theta (count + 1) i total = zetaFrom theta count (i + 1) (total + t)) ∧
      t.toRat ≤ 1 ∧ ∀ k : Nat, k ≤ 1024 → x.toRat ≤ 2 ^ k → (2 : ℚ) ^ (-k : Int) ≤ t.toRat := by
  have hbase : (1 : ℚ) ≤ x.toRat := by
    exact_mod_cast Binary64.le_toRat_of_ofInteger (by omega) (k := 1) (by norm_num) (by omega) hx
  obtain ⟨p, hp, hbounds⟩ := Binary64.exists_power hpowers (by linarith) h0 h1.le
  obtain ⟨hp1, hpx⟩ := hbounds hbase
  have hpos : 0 < p.toRat := by linarith
  have hrounds := Binary64.rounds_div (x := 1) (by rw [Binary64.toRat_one]; norm_num) hpos
  rw [Binary64.toRat_one] at hrounds
  have hq : 1 / p.toRat ≤ 1 := (div_le_one₀ hpos).mpr hp1
  have hgreatest : 1 / p.toRat ≤ 2 ^ (971 : Int) := Binary64.le_greatest_of_le (by linarith)
  refine ⟨1 / p, fun count total => ?_, ?_, fun k hk hle => ?_⟩
  · rw [zetaFrom, hx, ok_bind, hp, ok_bind, Binary64.divide_of_pos hpos, ok_bind]
  · have hhigh := hrounds.toRat_le hgreatest (k := 2 ^ 52) (e := -52) (by omega) (by omega) (by omega)
      (lt_of_le_of_lt hq (by norm_num))
    norm_num at hhigh
    simpa using hhigh
  · have hlow : ((1 : Nat) : ℚ) * 2 ^ (-k : Int) ≤ 1 / p.toRat := by
      rw [Nat.cast_one, one_mul, zpow_neg, zpow_natCast, ← one_div]
      exact one_div_le_one_div_of_le hpos (hpx.trans hle)
    have := hrounds.le_toRat hgreatest (by norm_num) (by omega) hlow
    rwa [Nat.cast_one, one_mul] at this

/-- Every term lies above zero. -/
theorem exists_term_pos {i : Nat} (hi : 1 ≤ i) {x : Binary64} (hx : Binary64.ofInteger i = .ok x) :
    ∃ t : Binary64, (∀ count total, zetaFrom theta (count + 1) i total = zetaFrom theta count (i + 1) (total + t)) ∧
      0 < t.toRat ∧ t.toRat ≤ 1 := by
  obtain ⟨t, hstep, hone, hlow⟩ := exists_term hpowers h0 h1 hi hx
  have hx0 : (1 : ℚ) ≤ x.toRat := by
    exact_mod_cast Binary64.le_toRat_of_ofInteger (by omega) (k := 1) (by norm_num) (by omega) hx
  have hx1 : x.toRat ≤ 2 ^ 1024 := by
    have := Binary64.toRat_lt_of_pos (x := x) (by linarith)
    exact_mod_cast this.le
  exact ⟨t, hstep, lt_of_lt_of_le (Binary64.two_zpow_pos _) (hlow 1024 (by omega) hx1), hone⟩

/-- The sum of terms for integers that are not too large can be made, and it is not below what it started from. -/
theorem zetaFrom_grows {count i : Nat} (hi : 1 ≤ i) {total : Binary64} (hlow : 1 ≤ total.toRat)
    (hhigh : total.toRat ≤ 2 ^ 54) (hfits : ∀ j, i ≤ j → j < i + count → ∃ x, Binary64.ofInteger j = .ok x) :
    ∃ sum, zetaFrom theta count i total = .ok sum ∧ total.toRat ≤ sum.toRat := by
  induction count generalizing i total with
  | zero => exact ⟨total, rfl, le_refl _⟩
  | succ count ih =>
      obtain ⟨x, hx⟩ := hfits i (Nat.le_refl i) (by omega)
      obtain ⟨t, hstep, ht0, ht1⟩ := exists_term_pos hpowers h0 h1 hi hx
      obtain ⟨hgrown, hbound⟩ := sum_bounds hlow hhigh ht0 ht1
      obtain ⟨sum, hsum, hle⟩ := ih (i := i + 1) (by omega) (by linarith) hbound fun j hj hlt =>
        hfits j (by omega) (by omega)
      exact ⟨sum, (hstep count total).trans hsum, hgrown.trans hle⟩

/-- The sum stops at the first integer that is too large. -/
theorem zetaFrom_tooLarge {count i : Nat} (hi : 1 ≤ i) {total : Binary64} (hlow : 1 ≤ total.toRat)
    (hhigh : total.toRat ≤ 2 ^ 54) {j : Nat} (hij : i ≤ j) (hj : j < i + count) {e : NumberError}
    (he : Binary64.ofInteger j = .error e) : zetaFrom theta count i total = .error e := by
  induction count generalizing i total with
  | zero => omega
  | succ count ih =>
      cases hx : Binary64.ofInteger i with
      | error e' =>
          obtain rfl := Binary64.ofInteger_error hx
          obtain rfl := Binary64.ofInteger_error he
          rw [zetaFrom, hx]
          rfl
      | ok x =>
          obtain ⟨t, hstep, ht0, ht1⟩ := exists_term_pos hpowers h0 h1 hi hx
          obtain ⟨hgrown, hbound⟩ := sum_bounds hlow hhigh ht0 ht1
          have hne : i ≠ j := by
            rintro rfl
            cases hx.symm.trans he
          rw [hstep]
          exact ih (by omega) (by linarith) hbound (by omega) (by omega)

/-- The first term is one. -/
theorem exists_first : ∃ one : Binary64, one.toRat = 1 ∧
    ∀ count, zetaFrom theta (count + 1) 1 0 = zetaFrom theta count 2 one := by
  have hx : Binary64.ofInteger (1 : Nat) = .ok 1 := Binary64.ofInteger_of_isFinite (by decide +kernel)
  obtain ⟨t, hstep, hone, hlow⟩ := exists_term hpowers h0 h1 (Nat.le_refl 1) hx
  have ht : t.toRat = 1 := by
    have := hlow 0 (by omega) (by rw [Binary64.toRat_one]; norm_num)
    norm_num at this
    exact le_antisymm hone this
  have hzero : (0 : Binary64).toRat = 0 := Binary64.toRat_zero false
  have hrounds := Binary64.rounds_add_of_isFinite (x := 0) rfl (Binary64.isFinite_of_toRat_pos (x := t) (by linarith))
    (by linarith)
  rw [hzero, ht, zero_add] at hrounds
  have hq : (1 : ℚ) ≤ 2 ^ (971 : Int) := Binary64.le_greatest_of_le (by norm_num)
  have hge := hrounds.le_toRat hq (k := 1) (e := 0) (by norm_num) (by omega) (by norm_num)
  have hle := hrounds.toRat_le hq (k := 2 ^ 52) (e := -52) (by omega) (by omega) (by omega) (by norm_num)
  norm_num at hge hle
  exact ⟨0 + t, le_antisymm hle hge, fun count => hstep count 0⟩

/-- The first two terms come to two at most. -/
theorem exists_second : ∃ two : Binary64, 1 ≤ two.toRat ∧ two.toRat ≤ 2 ∧
    ∀ count, zetaFrom theta (count + 2) 1 0 = zetaFrom theta count 3 two := by
  obtain ⟨one, hone, hfirst⟩ := exists_first hpowers h0 h1
  have hx : Binary64.ofInteger (2 : Nat) = .ok 2 := Binary64.ofInteger_of_isFinite (by decide +kernel)
  obtain ⟨t, hstep, ht0, ht1⟩ := exists_term_pos hpowers h0 h1 (by omega) hx
  obtain ⟨hlow, _⟩ := sum_bounds hone.ge (by rw [hone]; norm_num) ht0 ht1
  have hrounds := Binary64.rounds_add_of_isFinite (Binary64.isFinite_of_toRat_pos (x := one) (by linarith))
    (Binary64.isFinite_of_toRat_pos ht0) (by linarith)
  have hhigh := hrounds.toRat_le (Binary64.le_greatest_of_le (by linarith)) (k := 2 ^ 52) (e := -51) (by omega)
    (by omega) (by omega) (by rw [hone]; norm_num; linarith)
  norm_num at hhigh
  exact ⟨one + t, hone ▸ hlow, hhigh, fun count => (hfirst (count + 1)).trans (hstep count one)⟩

/-- The third term is a quarter at least, of which rounding leaves more than an eighth. -/
theorem exists_third {two : Binary64} (hlow : 1 ≤ two.toRat) (hhigh : two.toRat ≤ 2) :
    ∃ three : Binary64, two.toRat + 1 / 8 ≤ three.toRat ∧ three.toRat ≤ 2 ^ 54 ∧
      ∀ count, zetaFrom theta (count + 1) 3 two = zetaFrom theta count 4 three := by
  have hthree : Binary64.ofInt (3 : Nat) = .finite false (3 * Nat.pow 2 51) (-51) (by decide) := by decide +kernel
  have hx := Binary64.ofInteger_of_isFinite (z := (3 : Nat)) (by rw [hthree]; rfl)
  obtain ⟨t, hstep, ht1, ht⟩ := exists_term hpowers h0 h1 (by omega) hx
  have hquarter := ht 2 (by omega) (by rw [hthree, Binary64.toRat_finite_false]; norm_num)
  norm_num at hquarter
  have ht0 : 0 < t.toRat := by linarith
  obtain ⟨_, hbound⟩ := sum_bounds hlow (by norm_num; linarith) ht0 ht1
  have hrounds := Binary64.rounds_add_of_isFinite (Binary64.isFinite_of_toRat_pos (x := two) (by linarith))
    (Binary64.isFinite_of_toRat_pos ht0) (by linarith)
  -- the sum in eighths, of which rounding keeps the whole ones
  obtain ⟨k, hk, hk'⟩ : ∃ k : Nat, (k : ℚ) ≤ 8 * (two.toRat + t.toRat) ∧ 8 * (two.toRat + t.toRat) < k + 1 :=
    ⟨⌊8 * (two.toRat + t.toRat)⌋₊, Nat.floor_le (by linarith), Nat.lt_floor_add_one _⟩
  have hk53 : k ≤ 2 ^ 53 := by
    have : (k : ℚ) ≤ 2 ^ 53 := hk.trans (by norm_num; linarith)
    exact_mod_cast this
  have hkept := hrounds.le_toRat (Binary64.le_greatest_of_le (by norm_num; linarith)) hk53 (e := -3) (by omega)
    (by norm_num; linarith)
  norm_num at hkept
  exact ⟨two + t, by linarith, hbound, fun count => hstep count two⟩

/-- From three items on, the sum of all terms lies above that of the first two. -/
theorem exists_zetas {n : Nat} (hn : 1 ≤ n) {x : Binary64} (hx : Binary64.ofInteger n = .ok x) :
    ∃ zetaN zetaTwo, zeta n theta = .ok zetaN ∧ zeta 2 theta = .ok zetaTwo ∧ 1 ≤ zetaTwo.toRat ∧ zetaTwo.toRat ≤ 2 ∧
      (2 < n → zetaTwo.toRat + 1 / 8 ≤ zetaN.toRat) := by
  have hfits : ∀ j : Nat, 1 ≤ j → j ≤ n → ∃ y, Binary64.ofInteger j = .ok y := fun j hj hle =>
    Binary64.ofInteger_of_le (by omega) (by omega) hx
  obtain ⟨two, hlow, hhigh, hsecond⟩ := exists_second hpowers h0 h1
  have htwo : zeta 2 theta = .ok two := hsecond 0
  match n, hn with
  | 1, _ =>
      obtain ⟨one, _, hfirst⟩ := exists_first hpowers h0 h1
      exact ⟨one, two, hfirst 0, htwo, hlow, hhigh, fun h => absurd h (by omega)⟩
  | 2, _ => exact ⟨two, two, htwo, htwo, hlow, hhigh, fun h => absurd h (by omega)⟩
  | count + 3, _ =>
      obtain ⟨three, hgap, hbound, hthird⟩ := exists_third hpowers h0 h1 hlow hhigh
      obtain ⟨sum, hsum, hle⟩ : ∃ sum, zetaFrom theta count 4 three = .ok sum ∧ three.toRat ≤ sum.toRat :=
        zetaFrom_grows hpowers h0 h1 (by omega) (by linarith) hbound fun j hj hlt => hfits j (by omega) (by omega)
      refine ⟨sum, two, ?_, htwo, hlow, hhigh, fun _ => hgap.trans hle⟩
      exact (hsecond (count + 1)).trans ((hthird count).trans hsum)

/-- Of more items than fit into a number, the sum cannot be made. -/
theorem zeta_tooLarge {n : Nat} {e : NumberError} (he : Binary64.ofInteger n = .error e) :
    zeta n theta = .error e := by
  obtain ⟨one, hone, hfirst⟩ := exists_first hpowers h0 h1
  have hn : 1 < n := by
    by_contra hle
    have hsmall : n = 0 ∨ n = 1 := by omega
    rcases hsmall with rfl | rfl
    · cases (Binary64.ofInteger_of_isFinite (z := (0 : Nat)) rfl).symm.trans he
    · cases (Binary64.ofInteger_of_isFinite (z := (1 : Nat)) (by decide +kernel)).symm.trans he
  obtain ⟨count, rfl⟩ : ∃ count, n = count + 1 := ⟨n - 1, by omega⟩
  have hsum : zetaFrom theta count 2 one = .error e :=
    zetaFrom_tooLarge hpowers h0 h1 (by omega) hone.ge (by rw [hone]; norm_num) (by omega) (by omega) he
  exact (hfirst count).trans hsum

/-- The constant of the closed formula can be computed: its divisor is one less a quotient that lies below one. -/
theorem exists_eta {items : Nat} {x : Binary64} (hx : Binary64.ofInteger items = .ok x) {zetaN zetaTwo : Binary64}
    (hlow : 1 ≤ zetaTwo.toRat) (hhigh : zetaTwo.toRat ≤ 2)
    (hgap : 2 < items → zetaTwo.toRat + 1 / 8 ≤ zetaN.toRat) : ∃ eta, etaOf items theta zetaN zetaTwo = .ok eta := by
  unfold etaOf
  by_cases hitems : 2 < items
  · rw [if_pos hitems]
    have hgap := hgap hitems
    have hbase : (2 : ℚ) ≤ x.toRat := by
      exact_mod_cast Binary64.le_toRat_of_ofInteger (by omega) (k := 2) (by norm_num) (by omega) hx
    obtain ⟨he0, he1⟩ := toRat_one_sub h0 h1
    obtain ⟨power, hpower, _⟩ := Binary64.exists_power hpowers (Binary64.toRat_two_div_pos hbase) he0 he1
    have hdivisor := toRat_divisor_pos hlow hhigh hgap
    rw [hx, ok_bind, hpower, ok_bind, Binary64.divide_of_pos (by linarith), ok_bind, Binary64.divide_of_pos hdivisor]
    exact ⟨_, rfl⟩
  · rw [if_neg hitems]
    exact ⟨0, rfl⟩

end zeta

section ofRange

variable [Powers] (hpowers : Powers.Moderate) {theta : Binary64} (htheta : (theta.isPositive && theta.lt 1) = true)
  {greatest : Int} (h : 1 ≤ greatest)

include hpowers htheta

/-- The bound of the second item can be computed. -/
theorem exists_half_power : ∃ half, Binary64.half.power theta = .ok half := by
  obtain ⟨h0, h1⟩ := toRat_theta htheta
  have hbase : 0 < Binary64.half.toRat := by
    rw [Binary64.toRat_half]
    norm_num
  obtain ⟨half, hhalf, _⟩ := Binary64.exists_power hpowers hbase h0 h1.le
  exact ⟨half, hhalf⟩

include h

/-- A range from one to a positive integer that is not too large is made. -/
theorem ofRange_of_ofInteger {x : Binary64} (hx : Binary64.ofInteger greatest = .ok x) :
    ∃ z, ofRange 1 greatest theta = .ok z := by
  obtain ⟨h0, h1⟩ := toRat_theta htheta
  obtain ⟨items, rfl⟩ := Int.eq_ofNat_of_zero_le (show 0 ≤ greatest by omega)
  obtain ⟨zetaN, zetaTwo, hN, htwo, hlow, hhigh, hgap⟩ := exists_zetas hpowers h0 h1 (by omega) hx
  obtain ⟨eta, heta⟩ := exists_eta hpowers h0 h1 hx hlow hhigh hgap
  have hitems : ((items : Int) - 1 + 1).toNat = items := by omega
  unfold ofRange
  rw [if_neg (by omega), htheta, hitems]
  dsimp only
  rw [hN, ok_bind, htwo, ok_bind, Binary64.divide_of_pos (toRat_one_sub h0 h1).1, ok_bind, heta, ok_bind]
  exact ⟨_, rfl⟩

/-- A range from one to an integer that is too large is not made. -/
theorem ofRange_of_ofInteger_error {e : NumberError} (he : Binary64.ofInteger greatest = .error e) :
    ofRange 1 greatest theta = .error (.number e) := by
  obtain ⟨h0, h1⟩ := toRat_theta htheta
  obtain ⟨items, rfl⟩ := Int.eq_ofNat_of_zero_le (show 0 ≤ greatest by omega)
  have hitems : ((items : Int) - 1 + 1).toNat = items := by omega
  unfold ofRange
  rw [if_neg (by omega), htheta, hitems]
  dsimp only
  rw [zeta_tooLarge hpowers h0 h1 he]
  rfl

end ofRange

end Zipfian

end GeoWorkload
