import GeoWorkload.Binary64.Checked

/-!
# Decimals

What is written as a decimal is read back (`readInteger_decimal`), and so different integers have
different decimals (`decimal_inj`).  Both rest on the digits of a natural: they are those that
`Nat.toDigits` gives, and reading adds them up to the natural again (`exists_digits`).
-/

namespace GeoWorkload.Numeral

/-! ### Digits of a natural -/

theorem digitValue?_digitChar {d : Nat} (h : d < 10) :
    Text.digitValue? (Nat.digitChar d) = some d := by
  match d, h with
  | 0, _ | 1, _ | 2, _ | 3, _ | 4, _ | 5, _ | 6, _ | 7, _ | 8, _ | 9, _ => decide

theorem ofDigits_append_singleton (ds : List Nat) (d : Nat) :
    ofDigits (ds ++ [d]) = 10 * ofDigits ds + d := by
  simp [ofDigits, List.foldl_append]

/-- The characters of a natural are digits that add up to it. -/
theorem exists_digits (n : Nat) :
    ∃ ds : List Nat, Nat.toDigits 10 n = ds.map Nat.digitChar ∧ (∀ d ∈ ds, d < 10) ∧
      ds ≠ [] ∧ ofDigits ds = n := by
  induction n using Nat.strongRecOn with
  | ind n ih =>
      rw [Nat.toDigits_eq_if (by omega)]
      by_cases hn : n < 10
      · refine ⟨[n], by simp [hn], by simpa using hn, by simp, by simp [ofDigits]⟩
      · obtain ⟨ds, hds, hlt, _, hof⟩ := ih (n / 10) (by omega)
        refine ⟨ds ++ [n % 10], by simp [hn, hds], ?_, by simp, ?_⟩
        · intro d hd
          rcases List.mem_append.mp hd with hd | hd
          · exact hlt d hd
          · have := List.mem_singleton.mp hd
            omega
        · rw [ofDigits_append_singleton, hof]
          omega

theorem scanDigits_map_digitChar {ds : List Nat} (h : ∀ d ∈ ds, d < 10) (gap : Bool)
    (hgap : gap = true → ds ≠ []) :
    scanDigits gap (ds.map Nat.digitChar) = some (ds, []) := by
  induction ds generalizing gap with
  | nil =>
      cases gap with
      | false => rfl
      | true => exact absurd rfl (hgap rfl)
  | cons d ds ih =>
      have hd := digitValue?_digitChar (h d (by simp))
      have hds := ih (fun d' hd' => h d' (List.mem_cons_of_mem _ hd')) false (by simp)
      simp [scanDigits, hd, hds]

/-- A natural is read as its digits, with nothing left over. -/
theorem scanDigits_toDigits (n : Nat) :
    ∃ ds, scanDigits true (Nat.toDigits 10 n) = some (ds, []) ∧
      ds.length = (Nat.toDigits 10 n).length ∧ ofDigits ds = n := by
  obtain ⟨ds, hds, hlt, hne, hof⟩ := exists_digits n
  refine ⟨ds, ?_, by simp [hds], hof⟩
  rw [hds]
  exact scanDigits_map_digitChar hlt true fun _ => hne

/-! ### Signs -/

theorem toList_decimal (z : Int) :
    (decimal z).toList = (if z < 0 then ['-'] else []) ++ Nat.toDigits 10 z.natAbs := by
  rw [decimal, Int.toString_eq_repr, Int.repr_eq_if]
  by_cases hz : z < 0
  · have : ¬ 0 ≤ z := by omega
    have hn : (-z).toNat = z.natAbs := by omega
    simp [hz, this, hn]
  · have : 0 ≤ z := by omega
    have hn : z.toNat = z.natAbs := by omega
    simp [hz, this, hn]

/-- Every character of a decimal is a digit or a minus. -/
theorem of_mem_decimal {z : Int} {c : Char} (h : c ∈ (decimal z).toList) :
    c.isDigit = true ∨ c = '-' := by
  rw [toList_decimal] at h
  rcases List.mem_append.mp h with h | h
  · split at h
    · exact Or.inr (List.mem_singleton.mp h)
    · exact absurd h List.not_mem_nil
  · exact Or.inl (Nat.isDigit_of_mem_toDigits (by omega) (by omega) h)

theorem splitSign_of_isDigit {c : Char} {cs : List Char} (h : c.isDigit = true) :
    splitSign (c :: cs) = (false, c :: cs) := by
  unfold splitSign
  split
  · rename_i e
    obtain ⟨rfl, _⟩ := List.cons.inj e
    simp at h
  · rename_i e
    obtain ⟨rfl, _⟩ := List.cons.inj e
    simp at h
  · rfl

theorem isBlank_of_isDigit {c : Char} (h : c.isDigit = true) : Text.isBlank c = false := by
  have hc : 48 ≤ c.toNat ∧ c.toNat ≤ 57 := by
    simpa [Char.isDigit, UInt32.le_iff_toNat_le] using h
  simp only [Text.isBlank, Bool.or_eq_false_iff, Bool.and_eq_false_iff, beq_eq_false_iff_ne,
    decide_eq_false_iff_not]
  omega

theorem isNumeralBlank_of_isDigit {c : Char} (h : c.isDigit = true) :
    Text.isNumeralBlank c = false := by
  simp [Text.isNumeralBlank, isBlank_of_isDigit h]

theorem splitSign_decimal (z : Int) :
    splitSign (decimal z).toList = (decide (z < 0), Nat.toDigits 10 z.natAbs) := by
  rw [toList_decimal]
  by_cases hz : z < 0
  · simp [hz, splitSign]
  · have hne := Nat.toDigits_ne_nil (n := z.natAbs) (b := 10)
    rcases hd : Nat.toDigits 10 z.natAbs with _ | ⟨c, cs⟩
    · exact absurd hd hne
    · have hc : c.isDigit = true :=
        Nat.isDigit_of_mem_toDigits (by omega) (by omega) (hd ▸ List.mem_cons_self)
      simpa [hz] using splitSign_of_isDigit hc

theorem dropWhile_decimal (z : Int) :
    (decimal z).toList.dropWhile Text.isNumeralBlank = (decimal z).toList := by
  rcases hd : (decimal z).toList with _ | ⟨c, cs⟩
  · rfl
  · have hc : Text.isNumeralBlank c = false := by
      rcases of_mem_decimal (hd ▸ List.mem_cons_self) with h | rfl
      · exact isNumeralBlank_of_isDigit h
      · decide
    simp [hc]

/-! ### Reading back -/

theorem writeInteger_eq (z : Int) :
    writeInteger z = if IsWritable z then .ok (decimal z) else .error .unwritable := by
  unfold writeInteger decimal?
  split <;> rfl

theorem writeInteger_cases (z : Int) :
    IsWritable z ∧ writeInteger z = .ok (decimal z) ∨
      ¬ IsWritable z ∧ writeInteger z = .error .unwritable := by
  rw [writeInteger_eq]
  rcases Decidable.em (IsWritable z) with hz | hz
  · exact Or.inl ⟨hz, if_pos hz⟩
  · exact Or.inr ⟨hz, if_neg hz⟩

/-- Integers of one digit can be written. -/
theorem isWritable_of_natAbs_lt {z : Int} (h : z.natAbs < 10) : IsWritable z := by
  have hpow : ∀ k, k ≠ 0 → 10 ≤ Nat.pow 10 k := fun k hk => by
    rw [Nat.pow_eq]
    exact Nat.le_self_pow hk 10
  exact Nat.lt_of_lt_of_le h (hpow maxDigits (by decide))

/-- What lies between integers that can be written can be written. -/
theorem IsWritable.of_le_of_le {a b c : Int} (ha : IsWritable a) (hc : IsWritable c) (hab : a ≤ b)
    (hbc : b ≤ c) : IsWritable b := by
  unfold IsWritable at ha hc ⊢
  rcases Nat.le_total a.natAbs c.natAbs with h | h
  · exact Nat.lt_of_le_of_lt (by omega) hc
  · exact Nat.lt_of_le_of_lt (by omega) ha

theorem length_toDigits_le {n k : Nat} (hk : 0 < k) (h : n < Nat.pow 10 k) :
    (Nat.toDigits 10 n).length ≤ k := by
  rw [Nat.pow_eq] at h
  exact (Nat.length_toDigits_le_iff (by omega) hk).mpr h

/-- An integer that may be written is read back. -/
theorem readInteger_decimal {z : Int} (h : IsWritable z) : readInteger (decimal z) = .ok z := by
  obtain ⟨ds, hscan, hlen, hof⟩ := scanDigits_toDigits z.natAbs
  have hle : ds.length ≤ maxDigits := by
    rw [hlen]
    exact length_toDigits_le (by decide) h
  have hnot : ¬ maxDigits < ds.length := by omega
  unfold readInteger
  rw [dropWhile_decimal, splitSign_decimal]
  simp only [hscan, if_neg hnot, List.all_nil, if_true, hof]
  by_cases hz : z < 0
  · simp only [hz, decide_true, if_true]
    congr 1
    omega
  · simp only [hz, decide_false, Bool.false_eq_true, if_false]
    congr 1
    omega

theorem ofDigits_lt {ds : List Nat} (h : ∀ d ∈ ds, d < 10) : ofDigits ds < Nat.pow 10 ds.length := by
  have hfrom : ∀ n, ds.foldl (fun n d => 10 * n + d) n < (n + 1) * 10 ^ ds.length := by
    induction ds with
    | nil => simp
    | cons d ds ih =>
        intro n
        have hd := h d List.mem_cons_self
        rw [List.foldl_cons, List.length_cons, Nat.pow_succ]
        calc ds.foldl (fun n d => 10 * n + d) (10 * n + d)
            < (10 * n + d + 1) * 10 ^ ds.length := ih (fun d' hd' => h d' (List.mem_cons_of_mem _ hd')) _
          _ ≤ (10 * (n + 1)) * 10 ^ ds.length := Nat.mul_le_mul_right _ (by omega)
          _ = (n + 1) * (10 ^ ds.length * 10) := by rw [Nat.mul_comm 10, Nat.mul_assoc, Nat.mul_comm 10]
  have hzero := hfrom 0
  rwa [Nat.zero_add, Nat.one_mul] at hzero

theorem lt_of_digitValue? {c : Char} {d : Nat} (h : Text.digitValue? c = some d) : d < 10 := by
  obtain ⟨start, hstart, rfl⟩ := Option.map_eq_some_iff.mp h
  have hrange := List.find?_some hstart
  simp only [Bool.and_eq_true, decide_eq_true_eq] at hrange
  omega

theorem lt_of_mem_scanDigits {gap : Bool} {s rest : List Char} {ds : List Nat}
    (h : scanDigits gap s = some (ds, rest)) : ∀ d ∈ ds, d < 10 := by
  fun_induction scanDigits gap s generalizing ds rest with
  | case1 => cases h
  | case2 =>
      cases h
      exact fun _ hd => absurd hd List.not_mem_nil
  | case3 gap c s d hc ih =>
      obtain ⟨⟨ds', rest'⟩, hds', heq⟩ := Option.map_eq_some_iff.mp h
      cases heq
      exact List.forall_mem_cons.mpr ⟨lt_of_digitValue? hc, ih hds'⟩
  | case4 => cases h
  | case5 c s hc hgap ih => exact ih h
  | case6 c s hc hgap hne =>
      cases h
      exact fun _ hd => absurd hd List.not_mem_nil

/-- An integer with at most `maxDigits` digits may be written. -/
theorem isWritable_ofDigits {ds : List Nat} (hlt : ∀ d ∈ ds, d < 10) (hlength : ds.length ≤ maxDigits)
    (negative : Bool) : IsWritable (if negative then -(ofDigits ds : Int) else (ofDigits ds : Int)) := by
  have hdigits := ofDigits_lt hlt
  have hpow : ∀ {j k : Nat}, j ≤ k → Nat.pow 10 j ≤ Nat.pow 10 k := Nat.pow_le_pow_right (by decide)
  have hle := hpow hlength
  have habs : (if negative then -(ofDigits ds : Int) else (ofDigits ds : Int)).natAbs = ofDigits ds := by
    split
    · rw [Int.natAbs_neg, Int.natAbs_natCast]
    · rw [Int.natAbs_natCast]
  unfold IsWritable
  rw [habs]
  exact Nat.lt_of_lt_of_le hdigits hle

/-- An integer that is read may be written. -/
theorem isWritable_of_readInteger {text : String} {z : Int} (h : readInteger text = .ok z) : IsWritable z := by
  unfold readInteger at h
  dsimp only at h
  split at h
  · cases h
  · rename_i ds rest hscan
    split at h
    · cases h
    · rename_i hshort
      split at h
      · obtain rfl := Except.ok.inj h
        exact isWritable_ofDigits (lt_of_mem_scanDigits hscan) (Nat.not_lt.mp hshort) _
      · cases h

theorem decimal_inj {a b : Int} : decimal a = decimal b ↔ a = b := by
  refine ⟨fun h => ?_, fun h => h ▸ rfl⟩
  have hs := splitSign_decimal a
  rw [h, splitSign_decimal b] at hs
  obtain ⟨hsign, hdigits⟩ := Prod.mk.inj hs
  obtain ⟨ds, hds, _, ha⟩ := scanDigits_toDigits a.natAbs
  obtain ⟨es, hes, _, hb⟩ := scanDigits_toDigits b.natAbs
  rw [hdigits, hds] at hes
  obtain ⟨rfl, _⟩ := Prod.mk.inj (Option.some.inj hes)
  have := decide_eq_decide.mp hsign
  omega

end GeoWorkload.Numeral
