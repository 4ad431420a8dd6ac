import GeoWorkload.Random.Twister
import Mathlib.Logic.Function.Basic

/-!
# The words of a twister

A twister gives out the words of its state, tempered, and renews them when all have been given out.  Both can be undone:
a word as it is given out comes from one word of the state only (`Twister.temper_injective`), and renewed words come from
one state only but for 31 bits of its first word, which renewal never looks at (`Twister.agreeFrom_of_renew`).  So two
twisters that are about to renew their words and then give out the same `size` words agree in all the bits that count
(`Twister.agreeFrom_of_given`).
-/

namespace GeoWorkload

namespace Twister

/-! ### Shifted words -/

section shifts

variable {x y s : UInt32}

/-- A word and the bits `s` places above them determine each other from the top down. -/
theorem eq_of_xor_shiftRight (hs : 0 < s.toNat % 32) (h : x ^^^ (x >>> s) = y ^^^ (y >>> s)) : x = y := by
  have hbits : ∀ d k, k + d = 32 → x.toBitVec.getLsbD k = y.toBitVec.getLsbD k := by
    intro d
    induction d using Nat.strongRecOn with
    | ind d ih =>
        intro k hk
        have hbit := congrArg (·.toBitVec.getLsbD k) h
        simp only [UInt32.toBitVec_xor, UInt32.toBitVec_shiftRight, BitVec.ushiftRight_eq', BitVec.toNat_umod,
          BitVec.getLsbD_xor, BitVec.getLsbD_ushiftRight] at hbit
        have habove : x.toBitVec.getLsbD (s.toNat % 32 + k) = y.toBitVec.getLsbD (s.toNat % 32 + k) := by
          by_cases hin : s.toNat % 32 + k < 32
          · exact ih (32 - (s.toNat % 32 + k)) (by omega) (s.toNat % 32 + k) (by omega)
          · rw [BitVec.getLsbD_of_ge _ _ (by omega), BitVec.getLsbD_of_ge _ _ (by omega)]
        exact Bool.xor_left_inj.mp (hbit.trans (congrArg _ habove.symm))
  exact UInt32.toBitVec_inj.mp (BitVec.eq_of_getLsbD_eq fun k hk => hbits (32 - k) k (by omega))

/-- A word and some of the bits `s` places below them determine each other from the bottom up. -/
theorem eq_of_xor_shiftLeft (hs : 0 < s.toNat % 32) {mask : UInt32}
    (h : x ^^^ ((x <<< s) &&& mask) = y ^^^ ((y <<< s) &&& mask)) : x = y := by
  refine UInt32.toBitVec_inj.mp (BitVec.eq_of_getLsbD_eq fun k => ?_)
  induction k using Nat.strongRecOn with
  | ind k ih =>
      intro hk
      have hbit := congrArg (·.toBitVec.getLsbD k) h
      simp only [UInt32.toBitVec_xor, UInt32.toBitVec_and, UInt32.toBitVec_shiftLeft, BitVec.shiftLeft_eq',
        BitVec.toNat_umod, BitVec.getLsbD_xor, BitVec.getLsbD_and, BitVec.getLsbD_shiftLeft] at hbit
      have hbelow : (!decide (k < s.toNat % 32) && x.toBitVec.getLsbD (k - s.toNat % 32)) =
          (!decide (k < s.toNat % 32) && y.toBitVec.getLsbD (k - s.toNat % 32)) := by
        by_cases hlow : k < s.toNat % 32
        · rw [decide_eq_true hlow, Bool.not_true, Bool.false_and, Bool.false_and]
        · rw [ih (k - s.toNat % 32) (by omega) (by omega)]
      simp only [hk, decide_true, Bool.true_and] at hbit
      refine Bool.xor_left_inj.mp (hbit.trans (congrArg _ ?_))
      exact (congrArg (· && mask.toBitVec.getLsbD k) hbelow).symm

end shifts

/-- The bits of two neighbouring words, moved down by one place, with the constant that the lowest one adds. -/
def twist (y : UInt32) : UInt32 := (y >>> 1) ^^^ (if y &&& 1 = 0 then 0 else 0x9908b0df)

theorem twist_injective : Function.Injective twist := by
  have hhalf : ∀ {x y : UInt32}, x >>> 1 = y >>> 1 → (x &&& 1 = 0 ↔ y &&& 1 = 0) → x = y := by
    intro x y hhigh hlow
    have hhigh := congrArg UInt32.toNat hhigh
    rw [← UInt32.toNat_inj, ← UInt32.toNat_inj] at hlow
    simp only [UInt32.toNat_shiftRight, UInt32.toNat_and, UInt32.reduceToNat, Nat.reduceMod,
      Nat.shiftRight_eq_div_pow, Nat.and_one_is_mod] at hhigh hlow
    rw [← UInt32.toNat_inj]
    omega
  -- the highest bit tells whether the constant was added
  have hapart : ∀ {x y : UInt32}, (x >>> 1) ^^^ (0 : UInt32) ≠ (y >>> 1) ^^^ (0x9908b0df : UInt32) := by
    intro x y h
    have hbit := congrArg (·.toBitVec.getLsbD 31) h
    simp at hbit
  intro x y h
  unfold twist at h
  by_cases hx : x &&& 1 = 0
  · by_cases hy : y &&& 1 = 0
    · rw [if_pos hx, if_pos hy] at h
      exact hhalf ((UInt32.xor_left_inj 0).mp h) (iff_of_true hx hy)
    · rw [if_pos hx, if_neg hy] at h
      exact absurd h hapart
  · by_cases hy : y &&& 1 = 0
    · rw [if_neg hx, if_pos hy] at h
      exact absurd h.symm hapart
    · rw [if_neg hx, if_neg hy] at h
      exact hhalf ((UInt32.xor_left_inj _).mp h) (iff_of_false hx hy)

theorem temper_injective : Function.Injective temper := by
  intro x y h
  unfold temper at h
  have h := eq_of_xor_shiftRight (by decide) h
  have h := eq_of_xor_shiftLeft (by decide) h
  have h := eq_of_xor_shiftLeft (by decide) h
  exact eq_of_xor_shiftRight (by decide) h

/-! ### Renewed words -/

/-- The highest bit of a word and the others of the next one. -/
def straddle (a b : UInt32) : UInt32 := (a &&& 0x80000000) ||| (b &&& 0x7fffffff)

theorem renewed_eq (ws : Array UInt32) (i : Nat) : renewed ws i =
    ws.getD ((i + 397) % size) 0 ^^^ twist (straddle (ws.getD i 0) (ws.getD ((i + 1) % size) 0)) :=
  UInt32.xor_assoc _ _ _

theorem or_and_distrib (a b c : UInt32) : (a ||| b) &&& c = (a &&& c) ||| (b &&& c) :=
  UInt32.toBitVec_inj.mp BitVec.and_or_distrib_right

theorem straddle_and_high (a b : UInt32) : straddle a b &&& 0x80000000 = a &&& 0x80000000 := by
  have hapart : (0x7fffffff : UInt32) &&& 0x80000000 = 0 := by decide
  rw [straddle, or_and_distrib, UInt32.and_assoc, UInt32.and_assoc, hapart, UInt32.and_self, UInt32.and_zero,
    UInt32.or_zero]

theorem straddle_and_low (a b : UInt32) : straddle a b &&& 0x7fffffff = b &&& 0x7fffffff := by
  have hapart : (0x80000000 : UInt32) &&& 0x7fffffff = 0 := by decide
  rw [straddle, or_and_distrib, UInt32.and_assoc, UInt32.and_assoc, hapart, UInt32.and_self, UInt32.and_zero,
    UInt32.zero_or]

/-- A word is determined by its highest bit and the others. -/
theorem eq_of_and {a b : UInt32} (hhigh : a &&& 0x80000000 = b &&& 0x80000000)
    (hlow : a &&& 0x7fffffff = b &&& 0x7fffffff) : a = b := by
  have hall : (0x80000000 : UInt32) ||| 0x7fffffff = -1 := by decide
  have hboth : ∀ w : UInt32, (w &&& 0x80000000) ||| (w &&& 0x7fffffff) = w := by
    intro w
    rw [UInt32.and_comm w, UInt32.and_comm w, ← or_and_distrib, hall, UInt32.neg_one_and]
  rw [← hboth a, hhigh, hlow, hboth]

theorem getD_setIfInBounds {ws : Array UInt32} {i : Nat} (hi : i < ws.size) (w : UInt32) (k : Nat) :
    (ws.setIfInBounds i w).getD k 0 = if k = i then w else ws.getD k 0 := by
  rw [Array.getD_eq_getD_getElem?, Array.getElem?_setIfInBounds, Array.getD_eq_getD_getElem?]
  by_cases hk : i = k
  · subst hk
    rw [if_pos rfl, if_pos rfl, if_pos hi, Option.getD_some]
  · rw [if_neg hk, if_neg (Ne.symm hk)]

/-- Words agree in all that renewal from the `i`-th on looks at: in the highest bit of the `i`-th and in all of the
others. -/
structure AgreeFrom (i : Nat) (ws ws' : Array UInt32) : Prop where
  high : ws.getD i 0 &&& 0x80000000 = ws'.getD i 0 &&& 0x80000000
  others : ∀ k, k ≠ i → ws.getD k 0 = ws'.getD k 0

section renew

variable {ws ws' : Array UInt32} (hsize : ws.size = size) (hsize' : ws'.size = size)
include hsize hsize'

/-- Renewing a word can be undone. -/
theorem agreeFrom_of_renewed {i : Nat} (hi : i < size)
    (h : AgreeFrom (i + 1) (ws.setIfInBounds i (renewed ws i)) (ws'.setIfInBounds i (renewed ws' i))) :
    AgreeFrom i ws ws' := by
  obtain ⟨hhigh, hothers⟩ := h
  simp only [getD_setIfInBounds (hsize ▸ hi), getD_setIfInBounds (hsize' ▸ hi)] at hhigh hothers
  rw [if_neg (by omega), if_neg (by omega)] at hhigh
  have hsame : ∀ k, k ≠ i → k ≠ i + 1 → ws.getD k 0 = ws'.getD k 0 := by
    intro k hk hk'
    have hword := hothers k hk'
    rwa [if_neg hk, if_neg hk] at hword
  have hword := hothers i (by omega)
  have hfar : ws.getD ((i + 397) % size) 0 = ws'.getD ((i + 397) % size) 0 := by
    unfold size at hi ⊢
    exact hsame _ (by omega) (by omega)
  rw [if_pos rfl, if_pos rfl, renewed_eq, renewed_eq, hfar, UInt32.xor_right_inj] at hword
  have hstraddle := twist_injective hword
  have hfirst := straddle_and_high (ws.getD i 0) (ws.getD ((i + 1) % size) 0)
  have hnext := straddle_and_low (ws.getD i 0) (ws.getD ((i + 1) % size) 0)
  rw [hstraddle, straddle_and_high] at hfirst
  rw [hstraddle, straddle_and_low] at hnext
  refine ⟨hfirst.symm, fun k hk => ?_⟩
  by_cases hk' : k = i + 1
  · subst hk'
    by_cases hlast : i + 1 < size
    · rw [Nat.mod_eq_of_lt hlast] at hnext
      exact eq_of_and hhigh hnext.symm
    · have hout : ∀ {a : Array UInt32}, a.size = size → a.getD (i + 1) 0 = 0 := by
        intro a ha
        rw [Array.getD_eq_getD_getElem?, Array.getElem?_eq_none (by omega), Option.getD_none]
      rw [hout hsize, hout hsize']
  · exact hsame k hk hk'

theorem agreeFrom_of_renew {count i : Nat} (hcount : i + count = size)
    (h : ∀ k, (renew count i ws).getD k 0 = (renew count i ws').getD k 0) : AgreeFrom i ws ws' := by
  induction count generalizing i ws ws' with
  | zero => exact ⟨by rw [show ws.getD i 0 = ws'.getD i 0 from h i], fun k _ => h k⟩
  | succ count ih =>
      refine agreeFrom_of_renewed hsize hsize' (by omega) (ih ?_ ?_ (by omega) h)
      · rwa [Array.size_setIfInBounds]
      · rwa [Array.size_setIfInBounds]

end renew

theorem size_renew (count i : Nat) (ws : Array UInt32) : (renew count i ws).size = ws.size := by
  induction count generalizing i ws with
  | zero => rfl
  | succ count ih => exact (ih (i + 1) _).trans (Array.size_setIfInBounds ..)

/-! ### Words given out -/

/-- The words that a twister gives out next, so many of them. -/
def given : Nat → Twister → List UInt32
  | 0, _ => []
  | n + 1, t => t.next.1 :: given n t.next.2

theorem next_of_lt {ws : Array UInt32} {used : Nat} (h : used < size) :
    (Twister.mk ws used).next = (temper (ws.getD used 0), ⟨ws, used + 1⟩) := by
  unfold next
  rw [if_pos h]

/-- A twister that has given out all its words goes on like one whose words are renewed. -/
theorem given_of_used (n : Nat) (ws : Array UInt32) : given n ⟨ws, size⟩ = given n ⟨renew size 0 ws, 0⟩ := by
  cases n with
  | zero => rw [given, given]
  | succ n =>
      have hnext : (Twister.mk ws size).next = (Twister.mk (renew size 0 ws) 0).next := by
        rw [next_of_lt (show 0 < size by decide)]
        unfold next
        rw [if_neg (Nat.lt_irrefl size)]
      rw [given, given, hnext]

/-- Words given out come from the same words of the state. -/
theorem getD_eq_of_given {n used : Nat} {ws ws' : Array UInt32} (hused : used + n ≤ size)
    (h : given n ⟨ws, used⟩ = given n ⟨ws', used⟩) {k : Nat} (hk : used ≤ k) (hk' : k < used + n) :
    ws.getD k 0 = ws'.getD k 0 := by
  induction n generalizing used with
  | zero => omega
  | succ n ih =>
      rw [given, given, next_of_lt (by omega), next_of_lt (by omega), List.cons.injEq] at h
      rcases Nat.eq_or_lt_of_le hk with rfl | hlt
      · exact temper_injective h.1
      · exact ih (by omega) h.2 hlt (by omega)

theorem agreeFrom_of_given {ws ws' : Array UInt32} (hsize : ws.size = size) (hsize' : ws'.size = size)
    (h : given size ⟨ws, size⟩ = given size ⟨ws', size⟩) : AgreeFrom 0 ws ws' := by
  rw [given_of_used, given_of_used] at h
  refine agreeFrom_of_renew hsize hsize' (Nat.zero_add size) fun k => ?_
  by_cases hk : k < size
  · exact getD_eq_of_given (Nat.le_of_eq (Nat.zero_add size)) h (Nat.zero_le k) (by omega)
  · have hout : ∀ {a : Array UInt32}, a.size = size → (renew size 0 a).getD k 0 = 0 := by
      intro a ha
      rw [Array.getD_eq_getD_getElem?, Array.getElem?_eq_none (by rw [size_renew]; omega), Option.getD_none]
    rw [hout hsize, hout hsize']

end Twister

end GeoWorkload
