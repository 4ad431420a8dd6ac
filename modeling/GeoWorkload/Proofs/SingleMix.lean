import GeoWorkload.Mix
import GeoWorkload.Proofs.Outcomes

/-!
# Mixes of one item

The weights of a mix are added up in binary64, starting from the first and ending with a zero.  Adding that zero
changes no positive number (`Binary64.add_zero_of_isPositive`), so that a mix of a single item with a finite weight
always draws that item (`Mix.draw_ends_of_single`).
-/

namespace GeoWorkload

namespace Binary64

/-! ### Exact quotients -/

variable {m k b : Nat}

theorem scaled_ne_zero (hm : 0 < m) (k : Nat) : m * Nat.pow 2 k ≠ 0 :=
  Nat.mul_ne_zero (Nat.ne_of_gt hm) (Nat.ne_of_gt (Nat.pow_pos (by decide)))

/-- In units that divide it, a multiple of a power of two is a natural. -/
theorem inUnits_scaled (r : Nat) {f : Int} (h : (k : Int) - f = b + r) :
    ∃ d, 0 < d ∧ inUnits (m * Nat.pow 2 k) (Nat.pow 2 b) f = (m * Nat.pow 2 r * d, d) := by
  refine ⟨Nat.pow 2 b * Nat.pow 2 f.toNat, Nat.mul_pos (Nat.pow_pos (by decide)) (Nat.pow_pos (by decide)), ?_⟩
  have hexponents : k + (-f).toNat = r + (b + f.toNat) := by omega
  unfold inUnits
  simp only [Nat.pow_eq]
  rw [Nat.mul_assoc, Nat.mul_assoc, ← Nat.pow_add, ← Nat.pow_add, ← Nat.pow_add, hexponents]

theorem log2_scaled (hm : 0 < m) {j : Nat} (hlow : Nat.pow 2 j ≤ m) (hhigh : m < Nat.pow 2 (j + 1)) :
    (m * Nat.pow 2 k).log2 = j + k := by
  simp only [Nat.pow_eq] at *
  refine (Nat.log2_eq_iff (scaled_ne_zero hm k)).mpr ⟨?_, ?_⟩
  · rw [Nat.pow_add]
    exact Nat.mul_le_mul_right _ hlow
  · rw [show j + k + 1 = (j + 1) + k by omega, Nat.pow_add]
    exact Nat.mul_lt_mul_of_pos_right hhigh (Nat.pow_pos (by decide))

theorem roundHalfEven_mul (q : Nat) {d : Nat} (hd : 0 < d) : roundHalfEven (q * d) d = q := by
  unfold roundHalfEven
  dsimp only
  rw [Nat.mul_div_cancel q hd, Nat.mul_mod_left, if_pos (by omega)]

/-- A number that can be written is in units of its last place. -/
theorem lastPlace_scaled {e : Int} (hcanonical : IsCanonical m e) (hm : 0 < m) (hk : (k : Int) = e + b)
    (hb : b = 1074) : lastPlace (m * Nat.pow 2 k) (Nat.pow 2 b) = e := by
  obtain ⟨hlt, hleast, _, hnormal⟩ := hcanonical
  have hlog : (Nat.pow 2 b).log2 = b := Nat.log2_two_pow
  -- the exponent that is tried first is the right one or the one below
  have htried : ∀ f : Int, f = e ∨ f = e - 1 ∧ Nat.pow 2 52 ≤ m →
      (if (inUnits (m * Nat.pow 2 k) (Nat.pow 2 b) f).1 / (inUnits (m * Nat.pow 2 k) (Nat.pow 2 b) f).2 <
        Nat.pow 2 53 then f else f + 1) = e := by
    rintro f (rfl | ⟨rfl, hle⟩)
    · obtain ⟨d, hd, heq⟩ := inUnits_scaled (m := m) (k := k) (b := b) 0 (f := f) (by omega)
      rw [heq, Nat.mul_div_cancel _ hd, if_pos (by simpa using hlt)]
    · obtain ⟨d, hd, heq⟩ := inUnits_scaled (m := m) (k := k) (b := b) 1 (f := e - 1) (by omega)
      have hdouble : ¬ m * Nat.pow 2 1 < Nat.pow 2 53 := by
        have hpow : Nat.pow 2 53 = Nat.pow 2 52 * 2 := rfl
        have hone : Nat.pow 2 1 = 2 := rfl
        rw [hpow, hone]
        omega
      rw [heq, Nat.mul_div_cancel _ hd, if_neg hdouble]
      omega
  unfold lastPlace
  dsimp only
  apply htried
  rw [hlog]
  by_cases hfull : Nat.pow 2 52 ≤ m
  · rw [log2_scaled hm hfull hlt]
    rcases Int.lt_or_le (-1074) e with hgreater | hle
    · exact Or.inr ⟨by omega, hfull⟩
    · exact Or.inl (by omega)
  · have he : e = -1074 := hnormal.resolve_left hfull
    have hlow : (m * Nat.pow 2 k).log2 < 52 + k := by
      rw [Nat.log2_lt (scaled_ne_zero hm k), Nat.pow_add]
      exact Nat.mul_lt_mul_of_pos_right (Nat.not_le.mp hfull) (Nat.pow_pos (by decide))
    exact Or.inl (by omega)

/-- A positive number that can be written is the nearest to itself. -/
theorem ofDyadic_scaled {e : Int} (hcanonical : IsCanonical m e) (hm : 0 < m) :
    ofDyadic false (m * Nat.pow 2 (e + 1074).toNat) (-1074) = .finite false m e hcanonical := by
  have hleast := hcanonical.2.1
  have hwhole : m * Nat.pow 2 (e + 1074).toNat * Nat.pow 2 (-1074 : Int).toNat =
      m * Nat.pow 2 (e + 1074).toNat := Nat.mul_one _
  unfold ofDyadic ofRatio
  rw [hwhole, if_neg (scaled_ne_zero hm _)]
  generalize hb : (-(-1074 : Int)).toNat = b
  have hb' : b = 1074 := hb.symm
  have hplace := lastPlace_scaled (k := (e + 1074).toNat) hcanonical hm (by omega) hb'
  obtain ⟨d, hd, hunits⟩ := inUnits_scaled (m := m) (k := (e + 1074).toNat) (b := b) 0 (f := e) (by omega)
  dsimp only
  rw [hplace, hunits]
  dsimp only
  rw [roundHalfEven_mul _ hd]
  have hone : m * Nat.pow 2 0 = m := Nat.mul_one m
  unfold ofParts
  rw [hone, if_neg (Nat.ne_of_lt hcanonical.1)]
  exact dif_pos hcanonical

/-- A number in units of the least positive one. -/
theorem signedIn_least (negative : Bool) {e : Int} (h : -1074 ≤ e) : signedIn negative m e (min e (-1074)) =
    if negative then -((m * Nat.pow 2 (e + 1074).toNat : Nat) : Int) else (m * Nat.pow 2 (e + 1074).toNat : Nat) := by
  rw [Int.min_eq_right h]
  unfold signedIn
  rw [Int.sub_neg]

theorem signedIn_zero (e : Int) : signedIn false 0 (-1074) (min e (-1074)) = 0 := by
  unfold signedIn
  rw [Nat.zero_mul]
  rfl

/-- Adding zero changes no positive number. -/
theorem add_zero_of_isPositive {x : Binary64} (h : x.isPositive = true) : x + 0 = x := by
  cases x with
  | nan => cases h
  | infinite negative => rfl
  | finite negative m e hcanonical =>
      have hleast := hcanonical.2.1
      have hpositive : signedIn false 0 (-1074) (min (-1074) e) < signedIn negative m e (min (-1074) e) :=
        of_decide_eq_true h
      rw [Int.min_comm, signedIn_zero, signedIn_least negative hleast] at hpositive
      cases negative with
      | true =>
          rw [if_pos rfl] at hpositive
          omega
      | false =>
          rw [if_neg Bool.false_ne_true] at hpositive
          have hm : 0 < m := by
            refine Nat.pos_of_ne_zero ?_
            rintro rfl
            rw [Nat.zero_mul] at hpositive
            exact absurd hpositive (by decide)
          show ofSigned (signedIn false m e (min e (-1074)) + signedIn false 0 (-1074) (min e (-1074)))
            (min e (-1074)) (false && false) = _
          rw [signedIn_zero, signedIn_least false hleast, if_neg Bool.false_ne_true, Int.add_zero,
            Int.min_eq_right hleast]
          unfold ofSigned
          rw [if_neg (Int.ne_of_gt hpositive), decide_eq_false (Int.not_lt.mpr (Int.le_of_lt hpositive)),
            Int.natAbs_natCast]
          exact ofDyadic_scaled hcanonical hm

/-- A positive number lies neither below zero nor at it. -/
theorem le_zero_of_isPositive {x : Binary64} (h : x.isPositive = true) : x.le 0 = false := by
  have hzero : (0 : Binary64).lt x = true := h
  have hlt : x.lt 0 = false := by
    cases x with
    | nan => rfl
    | infinite negative =>
        cases negative with
        | true => cases h
        | false => rfl
    | finite negative m e hcanonical =>
        have hpositive : signedIn false 0 (-1074) (min (-1074) e) < signedIn negative m e (min (-1074) e) :=
          of_decide_eq_true h
        rw [Int.min_comm] at hpositive
        exact decide_eq_false (Int.not_lt.mpr (Int.le_of_lt hpositive))
  unfold le eq
  rw [hlt, hzero]
  simp

end Binary64

namespace Mix

variable {α : Type} {weights : List (α × Binary64)} {item : α × Binary64}

theorem ofWeights_of_single (h : (weights.filter fun item => item.2.isPositive) = [item]) :
    ofWeights weights = .ok ⟨item, []⟩ := by
  unfold ofWeights
  rw [h]

/-- A mix of one item draws it, and takes one random number for that. -/
theorem draw_ends_of_single (hpositive : item.2.isPositive = true) (hfinite : item.2.isFinite = true)
    (s : RandomSource) : (draw ⟨item, []⟩).Ends s (.ok item.1) s.unit.2 := by
  have htotal : total ⟨item, []⟩ = item.2 := Binary64.add_zero_of_isPositive hpositive
  unfold draw
  dsimp only
  rw [htotal, Binary64.le_zero_of_isPositive hpositive, hfinite]
  exact Action.ends_step _

end Mix

end GeoWorkload
