import Mathlib.Order.Basic
import Mathlib.Tactic.ByContra

/-!
# Columns with gaps

A column has a value in some of its places.  `lastSome` and `firstSome` are its values in the last and in the
first of the places below a bound that have one, and `leadingFilled` is the column with its first value in
all places before it.  `settled` is what becomes of a column of tokens that grows by one place at a time,
where an empty place takes the last value before it and from the third place on the leading places take the
first value (`settled_succ_of_lt`, `settled_succ_of_leadingFilled`).  `ClosedForm` says in other words which
token that is (`closedForm_settled`).
-/

namespace GeoWorkload.Column

variable {α : Type}

/-- The value in the last of the first `n` places that has one. -/
def lastSome (t : Nat → Option α) : Nat → Option α
  | 0 => none
  | n + 1 => (t n).or (lastSome t n)

/-- The value in the first of the first `n` places that has one. -/
def firstSome (t : Nat → Option α) : Nat → Option α
  | 0 => none
  | n + 1 => (firstSome t n).or (t n)

/-- Place `j` of the column with the first value of the first `n` places in all places before it. -/
def leadingFilled (t : Nat → Option α) (n j : Nat) : Option α :=
  if lastSome t (j + 1) = none then firstSome t n else t j

/-- Place `j` of a column of tokens after `n` of them: the last token up to it, or else the first token of
all once there are three places. -/
def settled (t : Nat → Option α) (n j : Nat) : Option α :=
  (lastSome t (j + 1)).or (if 3 ≤ n then firstSome t n else none)

/-- What a search over `n` places from `i` on finds: the first place with a value, if there is one. -/
def IsFirst (t : Nat → Option α) (i n : Nat) : Option (Nat × α) → Prop
  | some (k, v) => i ≤ k ∧ k < i + n ∧ t k = some v ∧ ∀ j, i ≤ j → j < k → t j = none
  | none => ∀ j, i ≤ j → j < i + n → t j = none

variable {t u : Nat → Option α} {n j : Nat} {v : α}

/-! ### The last and the first value -/

theorem lastSome_congr (h : ∀ j < n, t j = u j) : lastSome t n = lastSome u n := by
  induction n with
  | zero => rfl
  | succ n ih => rw [lastSome, lastSome, h n (by omega), ih fun j hj => h j (by omega)]

theorem firstSome_congr (h : ∀ j < n, t j = u j) : firstSome t n = firstSome u n := by
  induction n with
  | zero => rfl
  | succ n ih => rw [firstSome, firstSome, h n (by omega), ih fun j hj => h j (by omega)]

theorem lastSome_eq_none_iff : lastSome t n = none ↔ ∀ j < n, t j = none := by
  induction n with
  | zero => simp [lastSome]
  | succ n ih =>
      rw [lastSome, Option.or_eq_none_iff, ih]
      constructor
      · rintro ⟨hn, h⟩ j hj
        rcases Nat.lt_succ_iff_lt_or_eq.mp hj with hj | rfl
        · exact h j hj
        · exact hn
      · exact fun h => ⟨h n (by omega), fun j hj => h j (by omega)⟩

theorem firstSome_eq_none_iff : firstSome t n = none ↔ ∀ j < n, t j = none := by
  induction n with
  | zero => simp [firstSome]
  | succ n ih =>
      rw [firstSome, Option.or_eq_none_iff, ih]
      constructor
      · rintro ⟨h, hn⟩ j hj
        rcases Nat.lt_succ_iff_lt_or_eq.mp hj with hj | rfl
        · exact h j hj
        · exact hn
      · exact fun h => ⟨fun j hj => h j (by omega), h n (by omega)⟩

theorem lastSome_eq_none_iff_firstSome : lastSome t n = none ↔ firstSome t n = none := by
  rw [lastSome_eq_none_iff, firstSome_eq_none_iff]

/-- The last value has its place, and no place after it has one. -/
theorem lastSome_eq_some_iff :
    lastSome t n = some v ↔ ∃ j < n, t j = some v ∧ ∀ k, j < k → k < n → t k = none := by
  induction n with
  | zero => simp [lastSome]
  | succ n ih =>
      rw [lastSome, Option.or_eq_some_iff, ih]
      constructor
      · rintro (h | ⟨hn, j, hj, h, hlast⟩)
        · exact ⟨n, by omega, h, fun k hk hkn => by omega⟩
        · refine ⟨j, by omega, h, fun k hk hkn => ?_⟩
          rcases Nat.lt_succ_iff_lt_or_eq.mp hkn with hkn | rfl
          · exact hlast k hk hkn
          · exact hn
      · rintro ⟨j, hj, h, hlast⟩
        rcases Nat.lt_succ_iff_lt_or_eq.mp hj with hj | rfl
        · exact Or.inr ⟨hlast n hj (by omega), j, hj, h, fun k hk hkn => hlast k hk (by omega)⟩
        · exact Or.inl h

/-- The first value has its place, and no place before it has one. -/
theorem firstSome_eq_some_iff :
    firstSome t n = some v ↔ ∃ j < n, t j = some v ∧ ∀ k < j, t k = none := by
  induction n with
  | zero => simp [firstSome]
  | succ n ih =>
      rw [firstSome, Option.or_eq_some_iff, ih, firstSome_eq_none_iff]
      constructor
      · rintro (⟨j, hj, h⟩ | ⟨hnone, h⟩)
        · exact ⟨j, by omega, h⟩
        · exact ⟨n, by omega, h, hnone⟩
      · rintro ⟨j, hj, h, hfirst⟩
        rcases Nat.lt_succ_iff_lt_or_eq.mp hj with hj | rfl
        · exact Or.inl ⟨j, hj, h, hfirst⟩
        · exact Or.inr ⟨hfirst, h⟩

theorem firstSome_of_isFirst {found : Option (Nat × α)} (h : IsFirst t 0 n found) :
    firstSome t n = found.map (·.2) := by
  cases found with
  | none => exact firstSome_eq_none_iff.mpr fun j hj => h j (by omega) (by omega)
  | some first =>
      obtain ⟨_, hk, hv, hnone⟩ := h
      exact firstSome_eq_some_iff.mpr
        ⟨first.1, by omega, hv, fun j hj => hnone j (by omega) hj⟩

/-- The first value stays the first when there are more places. -/
theorem firstSome_eq_of_le {m : Nat} (hm : m ≤ n) (h : firstSome t m = some v) :
    firstSome t n = some v := by
  obtain ⟨j, hj, hv, hfirst⟩ := firstSome_eq_some_iff.mp h
  exact firstSome_eq_some_iff.mpr ⟨j, by omega, hv, hfirst⟩

/-! ### Settled columns -/

theorem settled_congr (h : ∀ i < n, t i = u i) (hj : j < n) : settled t n j = settled u n j := by
  rw [settled, settled, firstSome_congr h, lastSome_congr fun i hi => h i (by omega)]

/-- The last token up to a place settles it. -/
theorem settled_eq_of_last {k : Nat} (hk : k ≤ j) (htk : t k = some v)
    (hlast : ∀ i, k < i → i ≤ j → t i = none) : settled t n j = some v := by
  have hl : lastSome t (j + 1) = some v :=
    lastSome_eq_some_iff.mpr ⟨k, by omega, htk, fun i hi hij => hlast i hi (by omega)⟩
  rw [settled, hl]
  rfl

/-- The first token of all settles the places before it once there are three places. -/
theorem settled_eq_of_first (hnone : ∀ i ≤ j, t i = none) {k : Nat} (hk : k < n) (htk : t k = some v)
    (hfirst : ∀ i < k, t i = none) (h3 : 3 ≤ n) : settled t n j = some v := by
  have hl : lastSome t (j + 1) = none := lastSome_eq_none_iff.mpr fun i hi => hnone i (by omega)
  have hf : firstSome t n = some v := firstSome_eq_some_iff.mpr ⟨k, hk, htk, hfirst⟩
  rw [settled, hl, if_pos h3, hf]
  rfl

/-- A place stays empty where no token up to it is there, and no token at all or less than three places. -/
theorem settled_eq_none (hnone : ∀ i ≤ j, t i = none)
    (h : ∀ k < n, ∀ v, t k = some v → (∀ i < k, t i = none) → ¬ 3 ≤ n) : settled t n j = none := by
  have hl : lastSome t (j + 1) = none := lastSome_eq_none_iff.mpr fun i hi => hnone i (by omega)
  rw [settled, hl]
  split
  · rename_i h3
    rcases hf : firstSome t n with _ | v
    · rfl
    · obtain ⟨k, hk, htk, hfirst⟩ := firstSome_eq_some_iff.mp hf
      exact absurd h3 (h k hk v htk hfirst)
  · rfl

/-- The closed form of a place in a column of `n` tokens: the last token up to the place, or else the first
token of all, where it comes at place `n - 1` or before it and there are three places, or else nothing. -/
structure ClosedForm (t : Nat → Option α) (n j : Nat) (kept : Option α) : Prop where
  last : ∀ k ≤ j, ∀ v, t k = some v → (∀ i, k < i → i ≤ j → t i = none) → kept = some v
  first : (∀ i ≤ j, t i = none) → ∀ k v, t k = some v → (∀ i < k, t i = none) →
    max k 2 ≤ n - 1 → kept = some v
  absent : (∀ i ≤ j, t i = none) → (¬ ∃ k v, t k = some v ∧ (∀ i < k, t i = none) ∧
    max k 2 ≤ n - 1) → kept = none

theorem closedForm_settled (t : Nat → Option α) (n j : Nat) : ClosedForm t n j (settled t n j) where
  last k hk v htk hlast := settled_eq_of_last hk htk hlast
  first hnone k v htk hfirst hmax := settled_eq_of_first hnone (by omega) htk hfirst (by omega)
  absent hnone hno := settled_eq_none hnone fun k hk v htk hfirst h3 =>
    hno ⟨k, v, htk, hfirst, by omega⟩

/-- A column with a token has no empty place once there are three places. -/
theorem isSome_settled (h3 : 3 ≤ n) (hf : (firstSome t n).isSome) : (settled t n j).isSome := by
  rw [settled, if_pos h3]
  cases lastSome t (j + 1) with
  | none => exact hf
  | some v => rfl

/-- The last value of a settled column is the last token. -/
theorem lastSome_settled (h : ∀ j < n, u j = settled t n j) : lastSome u n = lastSome t n := by
  cases n with
  | zero => rfl
  | succ n =>
      rw [lastSome, h n (by omega), settled]
      rcases hl : lastSome t (n + 1) with _ | v
      · have hf := lastSome_eq_none_iff_firstSome.mp hl
        have hu : lastSome u n = none := by
          rw [lastSome_eq_none_iff]
          intro j hj
          have hj' : lastSome t (j + 1) = none :=
            lastSome_eq_none_iff.mpr fun k hk => lastSome_eq_none_iff.mp hl k (by omega)
          simp [h j (by omega), settled, hj', hf]
        simp [hf, hu]
      · simp

theorem lastSome_eq_none_of_le {m : Nat} (hm : m ≤ n) (h : lastSome t n = none) :
    lastSome t m = none :=
  lastSome_eq_none_iff.mpr fun j hj => lastSome_eq_none_iff.mp h j (by omega)

/-- The first value of a column of last tokens, with the first token or nothing as what they fall back on,
is the first token. -/
theorem firstSome_of_fallback {w : Option α} (hw : w = none ∨ w = firstSome t n)
    (hu : ∀ j < n, u j = (lastSome t (j + 1)).or w) : firstSome u n = firstSome t n := by
  rcases hp : firstSome t n with _ | p
  · have hw : w = none := by
      rcases hw with hw | hw
      · exact hw
      · rw [hw, hp]
    rw [firstSome_eq_none_iff]
    intro j hj
    have := lastSome_eq_none_of_le (m := j + 1) (by omega) (lastSome_eq_none_iff_firstSome.mpr hp)
    rw [hu j hj, this, hw]
    rfl
  · obtain ⟨k, hk, htk, hfirst⟩ := firstSome_eq_some_iff.mp hp
    have hlast : ∀ j < k, lastSome t (j + 1) = none := fun j hj =>
      lastSome_eq_none_iff.mpr fun i hi => hfirst i (by omega)
    have huk : u k = some p := by simp [hu k hk, lastSome, htk]
    rw [firstSome_eq_some_iff]
    rcases hw with hw | hw
    · exact ⟨k, hk, huk, fun j hj => by simp [hu j (by omega), hlast j hj, hw]⟩
    · -- the place of the fallback is the very first one
      refine ⟨0, by omega, ?_, fun j hj => by omega⟩
      rcases Nat.eq_zero_or_pos k with rfl | hpos
      · exact huk
      · simp [hu 0 (by omega), hlast 0 hpos, hw, hp]

/-- With its leading places filled, a column of last tokens falls back on the first token. -/
theorem leadingFilled_of_fallback {w : Option α} (hw : w = none ∨ w = firstSome t n)
    (hu : ∀ j < n, u j = (lastSome t (j + 1)).or w) (hj : j < n) :
    leadingFilled u n j = (lastSome t (j + 1)).or (firstSome t n) := by
  unfold leadingFilled
  rw [firstSome_of_fallback hw hu]
  split
  · rename_i hnone
    have huj := lastSome_eq_none_iff.mp hnone j (by omega)
    rw [hu j hj, Option.or_eq_none_iff] at huj
    rw [huj.1]
    rfl
  · rename_i hsome
    rw [hu j hj]
    rcases hl : lastSome t (j + 1) with _ | v
    · rcases hw with hw | hw
      · refine absurd (lastSome_eq_none_iff.mpr fun i hi => ?_) hsome
        rw [hu i (by omega), lastSome_eq_none_of_le (m := i + 1) (by omega) hl, hw]
        rfl
      · rw [hw]
    · rfl

theorem fallback_eq : (if 3 ≤ n then firstSome t n else none) = none ∨
    (if 3 ≤ n then firstSome t n else none) = firstSome t (n + 1) := by
  split
  · rcases hf : firstSome t n with _ | v
    · exact Or.inl rfl
    · exact Or.inr (firstSome_eq_of_le (Nat.le_succ n) hf).symm
  · exact Or.inl rfl

section growth

variable (hu : ∀ j < n, u j = settled t n j) (hn : u n = lastSome t (n + 1))
include hu hn

/-- A settled column with one more place: its last tokens fall back on what they fell back on before. -/
theorem eq_or_of_grown (hj : j < n + 1) :
    u j = (lastSome t (j + 1)).or (if 3 ≤ n then firstSome t n else none) := by
  rcases Nat.lt_succ_iff_lt_or_eq.mp hj with hj | rfl
  · exact hu j hj
  · rw [hn]
    rcases hl : lastSome t (j + 1) with _ | v
    · have := lastSome_eq_none_iff_firstSome.mp (lastSome_eq_none_of_le (Nat.le_succ j) hl)
      simp [this]
    · rfl

/-- A column with at most two places stays settled as it grows. -/
theorem settled_succ_of_lt (hlt : n < 2) (hj : j < n + 1) : u j = settled t (n + 1) j := by
  have h3 : ¬ 3 ≤ n := by omega
  have h3' : ¬ 3 ≤ n + 1 := by omega
  rw [eq_or_of_grown hu hn hj, settled, if_neg h3, if_neg h3']

/-- A column of three places or more that has a token stays settled as it grows. -/
theorem settled_succ_of_firstSome (h3 : 3 ≤ n) (hsome : (firstSome t n).isSome) (hj : j < n + 1) :
    u j = settled t (n + 1) j := by
  obtain ⟨v, hv⟩ := Option.isSome_iff_exists.mp hsome
  have h3' : 3 ≤ n + 1 := by omega
  rw [eq_or_of_grown hu hn hj, settled, if_pos h3, if_pos h3', hv,
    firstSome_eq_of_le (Nat.le_succ n) hv]

/-- A column of two places or more is settled again once its leading places are filled. -/
theorem settled_succ_of_leadingFilled (hle : 2 ≤ n) (hj : j < n + 1) :
    leadingFilled u (n + 1) j = settled t (n + 1) j := by
  have h3 : 3 ≤ n + 1 := by omega
  rw [settled, if_pos h3]
  exact leadingFilled_of_fallback fallback_eq (fun j hj => eq_or_of_grown hu hn hj) hj

/-- The column has a value somewhere if there is a token. -/
theorem firstSome_grown : firstSome u (n + 1) = firstSome t (n + 1) := by
  exact firstSome_of_fallback fallback_eq fun j hj => eq_or_of_grown hu hn hj

end growth

/-! ### Filling twice -/

/-- Where the first value stands in place `i`, the places before it take the value and the others stay. -/
theorem leadingFilled_of_isFirst {i : Nat} (h : IsFirst t 0 n (some (i, v))) :
    leadingFilled t n j = if j < i then some v else t j := by
  have hval : firstSome t n = some v := firstSome_of_isFirst h
  obtain ⟨_, _, hcol, hnone⟩ := h
  have hlast : lastSome t (j + 1) = none ↔ j < i := by
    rw [lastSome_eq_none_iff]
    constructor
    · intro hall
      by_contra hij
      have := hall i (by omega)
      rw [hcol] at this
      cases this
    · exact fun hji k hk => hnone k (by omega) (by omega)
  rw [leadingFilled, hval]
  by_cases hji : j < i
  · rw [if_pos (hlast.mpr hji), if_pos hji]
  · rw [if_neg fun h => hji (hlast.mp h), if_neg hji]

/-- Filling a column whose first value has been put into some of the places right before it comes to the
same as filling the column. -/
theorem leadingFilled_of_copied {i k : Nat} (h : IsFirst t 0 n (some (i, v))) (hk : k ≤ i)
    (hu : ∀ j < n, u j = if k ≤ j ∧ j < i then some v else t j) (hj : j < n) :
    leadingFilled u n j = leadingFilled t n j := by
  have hi : i < n := by
    have := h.2.1
    omega
  have hfirst : IsFirst u 0 n (some (k, v)) := by
    refine ⟨Nat.zero_le k, by omega, ?_, fun j _ hjk => ?_⟩
    · rw [hu k (by omega)]
      split
      · rfl
      · have : k = i := by omega
        rw [this]
        exact h.2.2.1
    · rw [hu j (by omega), if_neg (by omega)]
      exact h.2.2.2 j (by omega) (by omega)
  rw [leadingFilled_of_isFirst hfirst, leadingFilled_of_isFirst h, hu j hj]
  by_cases hjk : j < k
  · rw [if_pos hjk, if_pos (by omega)]
  · rw [if_neg hjk]
    by_cases hji : j < i
    · rw [if_pos ⟨by omega, hji⟩, if_pos hji]
    · rw [if_neg fun h => hji h.2, if_neg hji]

theorem leadingFilled_congr (h : ∀ j < n, t j = u j) (hj : j < n) :
    leadingFilled t n j = leadingFilled u n j := by
  rw [leadingFilled, leadingFilled, firstSome_congr h, h j hj,
    lastSome_congr (u := u) fun i hi => h i (by omega)]

theorem firstSome_leadingFilled : firstSome (leadingFilled t n) n = firstSome t n := by
  rcases hf : firstSome t n with _ | v
  · have hnone := firstSome_eq_none_iff.mp hf
    rw [firstSome_eq_none_iff]
    intro j hj
    simp [leadingFilled, hf, hnone j hj]
  · obtain ⟨k, hk, htk, hfirst⟩ := firstSome_eq_some_iff.mp hf
    refine firstSome_eq_some_iff.mpr ⟨0, by omega, ?_, fun j hj => by omega⟩
    unfold leadingFilled
    split
    · exact hf
    · rename_i hsome
      rcases Nat.eq_zero_or_pos k with rfl | hpos
      · exact htk
      · exact absurd (by simp [lastSome, hfirst 0 hpos]) hsome

/-- Once the leading places are filled, filling them changes nothing. -/
theorem leadingFilled_leadingFilled :
    leadingFilled (leadingFilled t n) n j = leadingFilled t n j := by
  rw [leadingFilled, firstSome_leadingFilled]
  split
  · rename_i hnone
    have h := lastSome_eq_none_iff.mp hnone j (by omega)
    rw [h]
    by_contra hne
    -- the first value would stand in place `j` or before it
    have hall := fun i hi => lastSome_eq_none_iff.mp hnone i hi
    rcases hl : lastSome t (j + 1) with _ | v
    · simp [leadingFilled, hl, hne] at h
    · obtain ⟨i, hi, hti, _⟩ := lastSome_eq_some_iff.mp hl
      have := hall i hi
      have hli : lastSome t (i + 1) ≠ none := by simp [lastSome, hti]
      simp [leadingFilled, hli, hti] at this
  · rfl

end GeoWorkload.Column
