import GeoWorkload.Json.Printer
import GeoWorkload.Proofs.Decimals
import GeoWorkload.Proofs.JsonTexts
import Mathlib.Tactic.SplitIfs

/-!
# Reading what was written

A value that is written is read back (`read_render`): the escapes of a string write its characters, the decimal
of an integer and the text of a binary64 number are numbers of the grammar, and arrays and objects are read item
by item.  It takes that no integer is too long (`Value.isWritable`), that no object gives a name twice, and of every
finite number that it is the one that its text writes (`Value.isFaithful`).  What is written is printable ASCII, so
that no value writes the end of a line (`printable_render`).
-/

namespace GeoWorkload.Json

/-- The printable characters of ASCII. -/
def Printable (c : Char) : Prop := 0x20 ≤ c.toNat ∧ c.toNat ≤ 0x7e

instance (c : Char) : Decidable (Printable c) := inferInstanceAs (Decidable (_ ∧ _))

theorem printable_of_isDigit {c : Char} (h : c.isDigit = true) : Printable c := by
  have hc : 48 ≤ c.toNat ∧ c.toNat ≤ 57 := by
    simpa [Char.isDigit, UInt32.le_iff_toNat_le] using h
  exact ⟨by omega, by omega⟩

/-! ### Strings -/

theorem hexValue?_hexDigit {n : Nat} (h : n < 16) : Text.hexValue? (Text.hexDigit n) = some n := by
  have hall : ∀ n : Fin 16, Text.hexValue? (Text.hexDigit n) = some n.val := by decide
  exact hall ⟨n, h⟩

theorem printable_hexDigit {n : Nat} (h : n < 16) : Printable (Text.hexDigit n) := by
  have hall : ∀ n : Fin 16, Printable (Text.hexDigit n) := by decide
  exact hall ⟨n, h⟩

/-- The four hexadecimal digits of a UTF-16 unit write it. -/
theorem hexDigits_unit {u : Nat} (h : u < 0x10000) :
    ∃ a b c d, Text.hexDigits 4 u = [a, b, c, d] ∧ unit? a b c d = some u := by
  refine ⟨_, _, _, _, rfl, ?_⟩
  unfold unit?
  rw [hexValue?_hexDigit (Nat.mod_lt _ (by decide)), hexValue?_hexDigit (Nat.mod_lt _ (by decide)),
    hexValue?_hexDigit (Nat.mod_lt _ (by decide)), hexValue?_hexDigit (Nat.mod_lt _ (by decide))]
  show some _ = some _
  congr 1
  omega

/-- No character is half of a pair. -/
theorem not_isHighUnit_toNat (c : Char) : isHighUnit c.toNat = false ∧ isLowUnit c.toNat = false := by
  have hvalid := c.valid
  unfold isHighUnit isLowUnit
  have hcases : c.toNat < 0xd800 ∨ 0xdfff < c.toNat := by
    rcases hvalid with h | h
    · exact Or.inl h
    · exact Or.inr h.1
  simp only [Bool.and_eq_false_iff, decide_eq_false_iff_not]
  omega

theorem ofUnit_toNat (c : Char) : ofUnit c.toNat = c := by
  obtain ⟨hhigh, hlow⟩ := not_isHighUnit_toNat c
  unfold ofUnit
  rw [hhigh, hlow]
  exact Char.ofNat_toNat c

theorem content_unitEscape {c : Char} (hc : c.toNat < 0x10000) {s t : List Char} (h : Content s t) :
    Content (unitEscape c.toNat ++ s) (c :: t) := by
  obtain ⟨a, b, d, e, hdigits, hunit⟩ := hexDigits_unit hc
  unfold unitEscape
  rw [hdigits]
  have hcontent := Content.unit hunit (fun hhigh => absurd hhigh (by simp [not_isHighUnit_toNat])) h
  rwa [ofUnit_toNat] at hcontent

theorem content_pairEscape {c : Char} (hc : 0x10000 ≤ c.toNat) {s t : List Char} (h : Content s t) :
    Content (unitEscape (0xd800 + (c.toNat - 0x10000) / 0x400) ++
      (unitEscape (0xdc00 + (c.toNat - 0x10000) % 0x400) ++ s)) (c :: t) := by
  have hlt : c.toNat < 0x110000 := by
    rcases c.valid with h | h
    · exact Nat.lt_trans h (by decide)
    · exact h.2
  obtain ⟨a₁, b₁, c₁, d₁, hdigits₁, hunit₁⟩ :=
    hexDigits_unit (u := 0xd800 + (c.toNat - 0x10000) / 0x400) (by omega)
  obtain ⟨a₂, b₂, c₂, d₂, hdigits₂, hunit₂⟩ :=
    hexDigits_unit (u := 0xdc00 + (c.toNat - 0x10000) % 0x400) (by omega)
  have hhigh : isHighUnit (0xd800 + (c.toNat - 0x10000) / 0x400) = true := by
    simp only [isHighUnit, Bool.and_eq_true, decide_eq_true_eq]
    omega
  have hlow : isLowUnit (0xdc00 + (c.toNat - 0x10000) % 0x400) = true := by
    simp only [isLowUnit, Bool.and_eq_true, decide_eq_true_eq]
    omega
  have hpair : ofPair (0xd800 + (c.toNat - 0x10000) / 0x400) (0xdc00 + (c.toNat - 0x10000) % 0x400) = c := by
    unfold ofPair
    rw [show 0x10000 + (0xd800 + (c.toNat - 0x10000) / 0x400 - 0xd800) * 0x400 +
      (0xdc00 + (c.toNat - 0x10000) % 0x400 - 0xdc00) = c.toNat by omega, Char.ofNat_toNat]
  unfold unitEscape
  rw [hdigits₁, hdigits₂]
  have hcontent := Content.pair hunit₁ hunit₂ hhigh hlow h
  rwa [hpair] at hcontent

/-- A character is written after a backslash, as itself, or as one or two code units. -/
theorem escapeChar_cases (c : Char) :
    (∃ e, shortEscape? e = some c ∧ Printable e ∧ escapeChar c = ['\\', e]) ∨
      (c ≠ '"' ∧ c ≠ '\\' ∧ Printable c ∧ escapeChar c = [c]) ∨
      (c.toNat < 0x10000 ∧ escapeChar c = unitEscape c.toNat) ∨
      (0x10000 ≤ c.toNat ∧ escapeChar c = unitEscape (0xd800 + (c.toNat - 0x10000) / 0x400) ++
        unitEscape (0xdc00 + (c.toNat - 0x10000) % 0x400)) := by
  by_cases hshort : ∃ e, shortEscape? e = some c ∧ Printable e ∧ escapeChar c = ['\\', e]
  · exact Or.inl hshort
  · have hne : ∀ e d, shortEscape? e = some d → Printable e → escapeChar d = ['\\', e] → c ≠ d := by
      rintro e _ he hp hd rfl
      exact hshort ⟨e, he, hp, hd⟩
    have hquote := hne '"' '"' rfl (by decide) rfl
    have hslash := hne '\\' '\\' rfl (by decide) rfl
    have hother : escapeChar c = if Printable c then [c] else if c.toNat < 0x10000 then unitEscape c.toNat
        else unitEscape (0xd800 + (c.toNat - 0x10000) / 0x400) ++
          unitEscape (0xdc00 + (c.toNat - 0x10000) % 0x400) := by
      unfold escapeChar
      rw [if_neg hquote, if_neg hslash, if_neg (hne 'n' '\n' rfl (by decide) rfl),
        if_neg (hne 'r' '\r' rfl (by decide) rfl), if_neg (hne 't' '\t' rfl (by decide) rfl),
        if_neg (hne 'f' '\x0c' rfl (by decide) rfl), if_neg (hne 'b' '\x08' rfl (by decide) rfl)]
      rfl
    by_cases hplain : Printable c
    · rw [if_pos hplain] at hother
      exact Or.inr (Or.inl ⟨hquote, hslash, hplain, hother⟩)
    · rw [if_neg hplain] at hother
      by_cases hunit : c.toNat < 0x10000
      · rw [if_pos hunit] at hother
        exact Or.inr (Or.inr (Or.inl ⟨hunit, hother⟩))
      · rw [if_neg hunit] at hother
        exact Or.inr (Or.inr (Or.inr ⟨Nat.not_lt.mp hunit, hother⟩))

/-- What is written for a character writes it. -/
theorem content_escapeChar (c : Char) {s t : List Char} (h : Content s t) :
    Content (escapeChar c ++ s) (c :: t) := by
  rcases escapeChar_cases c with ⟨e, he, _, hc⟩ | ⟨hquote, hslash, hplain, hc⟩ | ⟨hunit, hc⟩ | ⟨hpair, hc⟩
  · rw [hc]
    exact .escape he h
  · rw [hc]
    exact .plain hquote hslash hplain.1 h
  · rw [hc]
    exact content_unitEscape hunit h
  · rw [hc, List.append_assoc]
    exact content_pairEscape hpair h

theorem content_flatMap_escapeChar (s : List Char) : Content (s.flatMap escapeChar) s := by
  induction s with
  | nil => exact .nil
  | cons c s ih =>
      rw [List.flatMap_cons]
      exact content_escapeChar c ih

theorem printable_unitEscape {u : Nat} {c : Char} (h : c ∈ unitEscape u) : Printable c := by
  unfold unitEscape at h
  rcases List.mem_cons.mp h with rfl | h
  · decide
  · rcases List.mem_cons.mp h with rfl | h
    · decide
    · have hdigit : ∀ (width u : Nat), ∀ c ∈ Text.hexDigits width u, Printable c := by
        intro width
        induction width with
        | zero => exact fun _ _ hc => absurd hc List.not_mem_nil
        | succ width ih =>
            intro u c hc
            rcases List.mem_append.mp hc with hc | hc
            · exact ih _ c hc
            · rw [List.mem_singleton.mp hc]
              exact printable_hexDigit (Nat.mod_lt u (by decide))
      exact hdigit 4 u c h

theorem printable_escapeChar {c d : Char} (h : d ∈ escapeChar c) : Printable d := by
  rcases escapeChar_cases c with ⟨e, _, he, hc⟩ | ⟨_, _, hplain, hc⟩ | ⟨_, hc⟩ | ⟨_, hc⟩
  · rw [hc] at h
    rcases List.mem_cons.mp h with rfl | h
    · decide
    · rwa [List.mem_singleton.mp h]
  · rw [hc] at h
    rwa [List.mem_singleton.mp h]
  · rw [hc] at h
    exact printable_unitEscape h
  · rw [hc] at h
    exact (List.mem_append.mp h).elim printable_unitEscape printable_unitEscape

theorem printable_renderString {s : String} {c : Char} (h : c ∈ renderString s) : Printable c := by
  unfold renderString at h
  rcases List.mem_append.mp h with h | h
  · rcases List.mem_cons.mp h with rfl | h
    · decide
    · obtain ⟨d, _, hd⟩ := List.mem_flatMap.mp h
      exact printable_escapeChar hd
  · rw [List.mem_singleton.mp h]
    decide

/-! ### Digits of a natural -/

/-- The digits of a natural write it, and only zero starts with a zero. -/
theorem whole_toDigits (n : Nat) :
    Whole (Nat.toDigits 10 n) ∧ ((Nat.toDigits 10 n).head? = some '0' → n = 0) := by
  have hdigits : Digits (Nat.toDigits 10 n) :=
    ⟨Nat.toDigits_ne_nil, fun d hd => Nat.isDigit_of_mem_toDigits (by decide) (by decide) hd⟩
  have hzero : (Nat.toDigits 10 n).head? = some '0' → n = 0 := by
    -- the first digit is that of the natural without its last digit
    induction n using Nat.strongRecOn with
    | ind n ih =>
        intro hhead
        rw [Nat.toDigits_eq_if (by decide)] at hhead
        by_cases hn : n < 10
        · rw [if_pos hn] at hhead
          have hall : ∀ n : Fin 10, Nat.digitChar n = '0' → n.val = 0 := by decide
          exact hall ⟨n, hn⟩ (Option.some.inj hhead)
        · have hsome : (Nat.toDigits 10 (n / 10)).head?.isSome := by
            rw [List.isSome_head?]
            exact Nat.toDigits_ne_nil
          rw [if_neg hn, List.head?_append, Option.or_of_isSome hsome] at hhead
          have := ih (n / 10) (by omega)
            ⟨Nat.toDigits_ne_nil, fun d hd => Nat.isDigit_of_mem_toDigits (by decide) (by decide) hd⟩ hhead
          omega
  refine ⟨⟨hdigits, fun hhead => ?_⟩, hzero⟩
  rw [hzero hhead]
  rfl

theorem valueOf_toDigits (n : Nat) : valueOf (Nat.toDigits 10 n) = n := by
  obtain ⟨ds, hds, hlt, _, hof⟩ := Numeral.exists_digits n
  have hvalue : ∀ d : Fin 10, (Nat.digitChar d).toNat - 48 = d.val := by decide
  have hmap : (ds.map Nat.digitChar).map (fun c => c.toNat - 48) = ds := by
    rw [List.map_map]
    exact (List.map_congr_left fun d hd => hvalue ⟨d, hlt d hd⟩).trans (List.map_id ds)
  unfold valueOf
  rw [hds, hmap, hof]

/-- An integer that is not too long writes itself. -/
theorem number_decimal {z : Int} (h : Numeral.IsWritable z) : Number (Numeral.decimal z).toList (.int z) := by
  have hlength : (Nat.toDigits 10 z.natAbs).length ≤ Numeral.maxDigits :=
    Numeral.length_toDigits_le (by decide) h
  have hnumber := Number.int (decide (z < 0)) (whole_toDigits z.natAbs).1 hlength
  rw [valueOf_toDigits] at hnumber
  have hsign : minus (decide (z < 0)) = if z < 0 then ['-'] else [] := by
    by_cases hz : z < 0 <;> simp [minus, hz]
  have hvalue : (if decide (z < 0) = true then -(z.natAbs : Int) else (z.natAbs : Int)) = z := by
    by_cases hz : z < 0
    · rw [if_pos (by simpa using hz)]
      omega
    · rw [if_neg (by simpa using hz)]
      omega
  rwa [hsign, hvalue, ← Numeral.toList_decimal] at hnumber

/-! ### Binary64 numbers -/

/-- The text is one of a number without a sign that is no integer. -/
inductive Unsigned : List Char → Prop
  | parts {ds f fs e : List Char} {x : Int} (hds : Whole ds) (hf : Fraction f fs) (he : Exponent e x)
      (hne : f ++ e ≠ []) : Unsigned (ds ++ (f ++ e))

theorem Unsigned.of_fraction {ds fs : List Char} (hds : Whole ds) (hfs : Digits fs) :
    Unsigned (ds ++ '.' :: fs) := by
  have hunsigned := Unsigned.parts hds (.digits hfs) .absent nofun
  rwa [List.append_nil] at hunsigned

theorem Whole.take {ds : List Char} (h : Whole ds) {k : Nat} (hk : 0 < k) : Whole (ds.take k) := by
  obtain ⟨⟨hne, hall⟩, hzero⟩ := h
  obtain ⟨d, t, rfl⟩ := List.exists_cons_of_ne_nil hne
  obtain ⟨k, rfl⟩ := Nat.exists_eq_add_one_of_ne_zero (Nat.ne_of_gt hk)
  refine ⟨⟨nofun, fun c hc => hall c (List.mem_of_mem_take hc)⟩, fun hhead => ?_⟩
  obtain ⟨rfl, rfl⟩ := List.cons.inj (hzero hhead)
  rw [List.take_succ_cons, List.take_nil]

theorem digits_append {ds ds' : List Char} (h : ∀ d ∈ ds, d.isDigit = true) (h' : Digits ds') :
    Digits (ds ++ ds') := by
  refine ⟨List.append_ne_nil_of_right_ne_nil _ h'.1, fun d hd => ?_⟩
  rcases List.mem_append.mp hd with hd | hd
  · exact h d hd
  · exact h'.2 d hd

theorem isDigit_of_mem_replicate {n : Nat} {d : Char} (h : d ∈ List.replicate n '0') :
    d.isDigit = true := by
  rw [List.eq_of_mem_replicate h]
  decide

theorem toList_toString_natCast (n : Nat) : (toString n).toList = Nat.toDigits 10 n := by
  simp

theorem exponent_exponentText (e : Int) : ∃ x, Exponent (Binary64.exponentText e).toList x ∧
    (Binary64.exponentText e).toList ≠ [] := by
  have hpadded : Digits ((if (toString e.natAbs).length < 2 then "0" else "").toList ++
      Nat.toDigits 10 e.natAbs) := by
    refine digits_append ?_ (whole_toDigits e.natAbs).1.1
    split
    · exact forall_mem_of_all (by decide)
    · exact forall_mem_of_all (by decide)
  unfold Binary64.exponentText
  dsimp only
  rw [String.toList_append, String.toList_append, String.toList_append, toList_toString_natCast,
    List.append_assoc, List.append_assoc]
  generalize (if (toString e.natAbs).length < 2 then "0" else "").toList ++ Nat.toDigits 10 e.natAbs = ds
    at hpadded ⊢
  by_cases he : e < 0
  · rw [if_pos he]
    exact ⟨_, .negative (Or.inl rfl) hpadded, nofun⟩
  · rw [if_neg he]
    exact ⟨_, .positive (Or.inl rfl) hpadded, nofun⟩

theorem toList_zeros (n : Nat) : (Binary64.zeros n).toList = List.replicate n '0' := by
  rw [Binary64.zeros, String.toList_ofList]

/-- The written form of a positive decimal is the text of a number. -/
theorem unsigned_text {d : Binary64.Decimal} (hd : d.digits ≠ 0) : Unsigned d.text.toList := by
  obtain ⟨hwhole, hzero⟩ := whole_toDigits d.digits
  have hzeros : ∀ {n : Nat} (c : Char), c ∈ List.replicate n '0' → c.isDigit = true :=
    fun c hc => isDigit_of_mem_replicate hc
  have hdrop : ∀ k, ∀ c ∈ (Nat.toDigits 10 d.digits).drop k, c.isDigit = true :=
    fun k c hc => hwhole.1.2 c (List.mem_of_mem_drop hc)
  unfold Binary64.Decimal.text
  rw [toList_toString_natCast]
  generalize Nat.toDigits 10 d.digits = ds at hwhole hzero hdrop ⊢
  dsimp only
  split_ifs with hpositional hsmall hlarge hnone
  · -- a zero before the point
    simp only [String.toList_append, String.toList_ofList, toList_zeros]
    show Unsigned (['0'] ++ '.' :: (List.replicate _ '0' ++ ds))
    exact .of_fraction ⟨⟨nofun, forall_mem_of_all (by decide)⟩, fun _ => rfl⟩ (digits_append hzeros hwhole.1)
  · -- a zero after the point
    simp only [String.toList_append, String.toList_ofList, toList_zeros]
    show Unsigned ((ds ++ List.replicate _ '0') ++ '.' :: ['0'])
    refine .of_fraction ⟨⟨?_, fun c hc => ?_⟩, fun hhead => ?_⟩ ⟨nofun, forall_mem_of_all (by decide)⟩
    · exact List.append_ne_nil_of_left_ne_nil hwhole.1.1 _
    · rcases List.mem_append.mp hc with hc | hc
      · exact hwhole.1.2 c hc
      · exact hzeros c hc
    · rw [List.head?_append, Option.or_of_isSome (List.isSome_head?.mpr hwhole.1.1)] at hhead
      exact absurd (hzero hhead) hd
  · -- the point among the digits
    simp only [String.toList_append, String.toList_ofList, List.append_assoc]
    show Unsigned (ds.take _ ++ '.' :: ds.drop _)
    refine .of_fraction (hwhole.take (by omega)) ⟨fun hnil => ?_, hdrop _⟩
    have := List.drop_eq_nil_iff.mp hnil
    omega
  · -- one digit and an exponent
    obtain ⟨x, hx, hne⟩ := exponent_exponentText (ds.length + d.exponent - 1)
    simp only [String.toList_append, String.toList_ofList, List.append_assoc]
    exact .parts (hwhole.take Nat.one_pos) .absent hx hne
  · -- one digit, the others after the point, and an exponent
    obtain ⟨x, hx, _⟩ := exponent_exponentText (ds.length + d.exponent - 1)
    simp only [String.toList_append, String.toList_ofList, List.append_assoc]
    show Unsigned (ds.take 1 ++ ('.' :: ds.drop 1 ++ _))
    refine .parts (hwhole.take Nat.one_pos) (.digits ⟨fun hnil => ?_, hdrop 1⟩) hx nofun
    rw [hnil] at hnone
    exact hnone rfl

theorem ne_zero_of_inside {m least greatest x : Nat} (hleast : 0 < least)
    (h : (if m % 2 = 0 then decide (least ≤ x) && decide (x ≤ greatest)
      else decide (least < x) && decide (x < greatest)) = true) : x ≠ 0 := by
  split at h
  all_goals
    simp only [Bool.and_eq_true, decide_eq_true_eq] at h
    omega

/-- Zero lies outside of the interval of a positive number. -/
theorem gridPoint?_ne_zero {m : Nat} {e k : Int} {digits : Nat} (hm : 0 < m)
    (h : Binary64.gridPoint? m e k = some digits) : digits ≠ 0 := by
  have hgap : Binary64.lowerGap m e ≤ 2 := by
    unfold Binary64.lowerGap
    split <;> omega
  have hleast : 0 < (4 * m - Binary64.lowerGap m e) *
      (Nat.pow 2 (e - 2).toNat * Nat.pow 10 (-k).toNat) := by
    have htwo : 0 < Nat.pow 2 (e - 2).toNat := Nat.pow_pos (by decide)
    have hten : 0 < Nat.pow 10 (-k).toNat := Nat.pow_pos (by decide)
    exact Nat.mul_pos (by omega) (Nat.mul_pos htwo hten)
  unfold Binary64.gridPoint? at h
  dsimp only at h
  split at h
  · rename_i hbelow habove
    have hne := Nat.ne_zero_of_mul_ne_zero_left (ne_zero_of_inside hleast hbelow)
    rw [Option.some.injEq] at h
    split_ifs at h
    · exact h ▸ hne
    · exact h ▸ Nat.succ_ne_zero _
    · exact h ▸ fun hzero => hne (Nat.add_eq_zero_iff.mp hzero).1
  · rename_i hbelow habove
    cases h
    exact Nat.ne_zero_of_mul_ne_zero_left (ne_zero_of_inside hleast hbelow)
  · cases h
    exact Nat.succ_ne_zero _
  · cases h

theorem digits_searchGrids_ne_zero {m : Nat} (hm : 0 < m) (e : Int) (steps : Nat) (k : Int) :
    (Binary64.searchGrids m e steps k).digits ≠ 0 := by
  induction steps generalizing k with
  | zero => exact Nat.ne_of_gt hm
  | succ steps ih =>
      unfold Binary64.searchGrids
      cases h : Binary64.gridPoint? m e k with
      | none => exact ih (k - 1)
      | some digits => exact gridPoint?_ne_zero hm h

/-- A finite number is written as its sign and the text of a number that is no integer. -/
theorem exists_text_finite (negative : Bool) (m : Nat) (e : Int) (hcanonical : Binary64.IsCanonical m e) :
    ∃ s, Unsigned s ∧ (Binary64.finite negative m e hcanonical).text.toList = minus negative ++ s := by
  have hsign : (if negative = true then "-" else "").toList = minus negative := by
    cases negative <;> rfl
  unfold Binary64.text
  dsimp only
  rw [String.toList_append, hsign]
  by_cases hm : m = 0
  · rw [if_pos hm]
    have hzero : Unsigned (['0'] ++ '.' :: ['0']) :=
      .of_fraction ⟨⟨nofun, forall_mem_of_all (by decide)⟩, fun _ => rfl⟩
        ⟨nofun, forall_mem_of_all (by decide)⟩
    exact ⟨_, hzero, rfl⟩
  · rw [if_neg hm]
    exact ⟨_, unsigned_text (digits_searchGrids_ne_zero (Nat.pos_of_ne_zero hm) e _ _), rfl⟩

/-! ### Reading numbers -/

/-- The characters of numbers. -/
def Numeric (c : Char) : Prop := c.isDigit = true ∨ c ∈ ['-', '+', '.', 'e', 'E']

theorem Numeric.cases {p : Char → Prop} (hdigit : ∀ d : Fin 10, p (Nat.digitChar d))
    (hother : ∀ c ∈ ['-', '+', '.', 'e', 'E'], p c) {c : Char} (h : Numeric c) : p c := by
  rcases h with h | h
  · have hc : 48 ≤ c.toNat ∧ c.toNat ≤ 57 := by
      simpa [Char.isDigit, UInt32.le_iff_toNat_le] using h
    have hdigits : ∀ d : Fin 10, Nat.digitChar d = Char.ofNat (48 + d) := by decide
    have hp := hdigit ⟨c.toNat - 48, by omega⟩
    rw [hdigits] at hp
    rwa [show 48 + (c.toNat - 48) = c.toNat by omega, Char.ofNat_toNat] at hp
  · exact hother c h

/-- The characters of numbers are printable and mean themselves where numbers are read. -/
theorem Numeric.plain {c : Char} (h : Numeric c) : Printable c ∧ c ≠ '_' ∧
    Text.isNumeralBlank c = false ∧ Numeral.toAsciiDigit c = c :=
  Numeric.cases (p := fun c => Printable c ∧ c ≠ '_' ∧ Text.isNumeralBlank c = false ∧
    Numeral.toAsciiDigit c = c) (by decide) (forall_mem_of_all (by decide)) h

theorem Unsigned.numeric {s : List Char} (h : Unsigned s) : ∀ c ∈ s, Numeric c := by
  have hdigits : ∀ {ds : List Char}, Digits ds → ∀ c ∈ ds, Numeric c :=
    fun hds c hc => Or.inl (hds.2 c hc)
  have hletter : ∀ {e : Char}, e = 'e' ∨ e = 'E' → Numeric e := by
    rintro e (rfl | rfl)
    · exact Or.inr (by decide)
    · exact Or.inr (by decide)
  have hplus : Numeric '+' := Or.inr (by decide)
  have hminus : Numeric '-' := Or.inr (by decide)
  have hpoint : Numeric '.' := Or.inr (by decide)
  cases h with
  | @parts ds f fs e x hds hf he _ =>
      intro c hc
      rcases List.mem_append.mp hc with hc | hc
      · exact hdigits hds.1 c hc
      · rcases List.mem_append.mp hc with hc | hc
        · cases hf with
          | absent => exact absurd hc List.not_mem_nil
          | digits hfs => exact List.forall_mem_cons.mpr ⟨hpoint, hdigits hfs⟩ c hc
        · cases he with
          | absent => exact absurd hc List.not_mem_nil
          | unsigned he hes => exact List.forall_mem_cons.mpr ⟨hletter he, hdigits hes⟩ c hc
          | positive he hes =>
              have htail := List.forall_mem_cons.mpr ⟨hplus, hdigits hes⟩
              exact List.forall_mem_cons.mpr ⟨hletter he, htail⟩ c hc
          | negative he hes =>
              have htail := List.forall_mem_cons.mpr ⟨hminus, hdigits hes⟩
              exact List.forall_mem_cons.mpr ⟨hletter he, htail⟩ c hc

theorem numeric_minus_append (negative : Bool) {s : List Char} (h : ∀ c ∈ s, Numeric c) :
    ∀ c ∈ minus negative ++ s, Numeric c := by
  intro c hc
  rcases List.mem_append.mp hc with hc | hc
  · cases negative with
    | false => exact absurd hc List.not_mem_nil
    | true => exact List.mem_singleton.mp hc ▸ Or.inr (by decide)
  · exact h c hc

theorem dropUnderscores_of_not_mem {s : List Char} (h : ∀ c ∈ s, c ≠ '_') {previous : Char}
    (hprevious : previous ≠ '_') : Numeral.dropUnderscores previous s = some s := by
  induction s generalizing previous with
  | nil => rw [Numeral.dropUnderscores, if_neg hprevious]
  | cons c s ih =>
      have hc := h c List.mem_cons_self
      rw [Numeral.dropUnderscores, if_neg hc, if_neg fun h => hprevious h.1,
        ih (fun d hd => h d (List.mem_cons_of_mem _ hd)) hc]
      rfl

theorem dropWhile_eq_self {p : Char → Bool} {s : List Char} (h : ∀ c ∈ s, p c = false) :
    s.dropWhile p = s := by
  cases s with
  | nil => rfl
  | cons c s => exact List.dropWhile_cons_of_neg (by simp [h c List.mem_cons_self])

/-- Nothing about a numeric text changes before its sign and its digits are looked at. -/
theorem trimmed_numeric {s : List Char} (h : ∀ c ∈ s, Numeric c) :
    (((s.dropWhile Text.isNumeralBlank).reverse.dropWhile Text.isNumeralBlank).reverse.map
      Numeral.toAsciiDigit) = s := by
  have hblank : ∀ c ∈ s, Text.isNumeralBlank c = false := fun c hc => (h c hc).plain.2.2.1
  have hascii : ∀ c ∈ s, Numeral.toAsciiDigit c = c := fun c hc => (h c hc).plain.2.2.2
  rw [dropWhile_eq_self hblank, dropWhile_eq_self fun c hc => hblank c (List.mem_reverse.mp hc),
    List.reverse_reverse]
  exact (List.map_congr_left hascii).trans (List.map_id s)

/-- The digits of the fraction at the start of a text, if there is one, and what follows it. -/
def splitFraction : List Char → List Nat × List Char
  | '.' :: rest => Numeral.spanDigits rest
  | s => ([], s)

theorem readDecimal?_eq (negative : Bool) (s : List Char) : Numeral.readDecimal? negative s =
    let (whole, s) := Numeral.spanDigits s
    let (fraction, s) := splitFraction s
    if whole.isEmpty ∧ fraction.isEmpty then none
    else
      let (exponent, rest) := (Numeral.readExponent? s).getD (0, s)
      if rest.isEmpty then
        some (.ofDecimal negative (Numeral.ofDigits (whole ++ fraction)) (exponent - fraction.length))
      else none := by
  unfold Numeral.readDecimal?
  rcases Numeral.spanDigits s with ⟨whole, rest⟩
  dsimp only
  split
  · rfl
  · rename_i hpoint
    rw [splitFraction.eq_2 _ hpoint]

theorem splitFraction_append {f fs tail : List Char} (h : Fraction f fs)
    (htail : ∀ c ∈ tail.head?, c.isDigit = false ∧ c ≠ '.') :
    splitFraction (f ++ tail) = (fs.map fun c => c.toNat - 48, tail) := by
  cases h with
  | absent =>
      unfold splitFraction
      split
      · rename_i heq
        rw [List.nil_append] at heq
        exact absurd rfl (htail '.' (by rw [heq]; rfl)).2
      · rfl
  | digits hfs => exact spanDigits_append hfs.2 fun c hc => (htail c hc).1

theorem readDecimal?_parts (negative : Bool) {ds f fs e : List Char} {x : Int} (hds : Whole ds)
    (hf : Fraction f fs) (he : Exponent e x) : Numeral.readDecimal? negative (ds ++ (f ++ e)) =
      some (.ofDecimal negative (valueOf (ds ++ fs)) (x - fs.length)) := by
  have htail : ∀ c ∈ e.head?, c.isDigit = false ∧ c ≠ '.' := by
    have h := he.head .nil
    rwa [List.append_nil] at h
  obtain ⟨hexponent, _⟩ := readExponent?_append he .nil
  rw [List.append_nil] at hexponent
  have hwhole : (ds.map fun c => c.toNat - 48).isEmpty = false := by simpa using hds.1.1
  rw [readDecimal?_eq, spanDigits_append hds.1.2 (hf.head htail)]
  dsimp only
  rw [splitFraction_append hf htail]
  dsimp only
  rw [hexponent, hwhole]
  simp [valueOf]

/-- A number that is no integer is read as in a JSON text, where its text stands alone. -/
theorem readReal_unsigned (negative : Bool) {s : List Char} (h : Unsigned s) :
    ∃ x, Number (minus negative ++ s) (.float x) ∧
      Numeral.readReal (String.ofList (minus negative ++ s)) = .ok x := by
  have hnumeric := numeric_minus_append negative h.numeric
  have hunderscore : ∀ c ∈ minus negative ++ s, c ≠ '_' := fun c hc => (hnumeric c hc).plain.2.1
  cases h with
  | @parts ds f fs e x hds hf he hne =>
      refine ⟨_, .float negative hds hf he hne, ?_⟩
      have hsign : Numeral.splitSign (minus negative ++ (ds ++ (f ++ e))) = (negative, ds ++ (f ++ e)) := by
        cases negative with
        | true => rfl
        | false =>
            show Numeral.splitSign (ds ++ (f ++ e)) = _
            exact splitSign_digits hds.1
      have hword : ∀ word ∈ ["inf", "infinity", "nan"],
          String.ofList ((ds ++ (f ++ e)).map Char.toLower) ≠ word := by
        -- no word starts with a digit
        obtain ⟨d, t, rfl, hd⟩ := hds.exists_cons
        have hlower := Numeric.cases (p := fun c => c.toLower ≠ 'i' ∧ c.toLower ≠ 'n') (by decide)
          (forall_mem_of_all (by decide)) (Or.inl hd)
        have hhead : ∀ {c : Char} {u : List Char}, d.toLower ≠ c →
            String.ofList ((d :: t ++ (f ++ e)).map Char.toLower) ≠ String.ofList (c :: u) := by
          intro c u hne heq
          have htexts := congrArg String.toList heq
          rw [String.toList_ofList, String.toList_ofList] at htexts
          exact hne (List.cons.inj htexts).1
        simp only [List.forall_mem_cons, List.not_mem_nil, false_imp_iff, implies_true, and_true]
        exact ⟨hhead hlower.1, hhead hlower.1, hhead hlower.2⟩
      unfold Numeral.readReal
      rw [String.toList_ofList, trimmed_numeric hnumeric]
      dsimp only
      rw [dropUnderscores_of_not_mem hunderscore (by decide)]
      dsimp only
      rw [hsign]
      dsimp only
      rw [if_neg, if_neg, readDecimal?_parts negative hds hf he]
      · exact hword _ (by decide)
      · rintro (h | h)
        · exact hword _ (by decide) h
        · exact hword _ (by decide) h

/-! ### Values -/

/-- Whether the text of a number that is one reads as the number. -/
def readsBack (x : Binary64) : Bool :=
  match x with
  | .nan => false
  | .infinite _ => true
  | x => match Numeral.readReal x.text with
    | .ok y => y = x
    | .error _ => false

mutual

/-- Whether a value that can be written can be had back from its text: the text of each number that is one reads as
the number, and no object gives a name twice. -/
def Value.isFaithful : Value → Bool
  | .float x => readsBack x
  | .array items => itemsFaithful items
  | .object members => decide (members.map (·.1)).Nodup && membersFaithful members
  | .null | .bool _ | .int _ | .string _ => true
termination_by structural v => v

/-- Whether all items can be had back. -/
def itemsFaithful : List Value → Bool
  | [] => true
  | v :: rest => v.isFaithful && itemsFaithful rest
termination_by structural v => v

/-- Whether the values of all members can be had back. -/
def membersFaithful : List (String × Value) → Bool
  | [] => true
  | member :: rest => memberFaithful member && membersFaithful rest
termination_by structural v => v

/-- Whether the value of a member can be had back. -/
def memberFaithful : String × Value → Bool
  | (_, v) => v.isFaithful
termination_by structural v => v

end

/-- The style has a comma between items and a colon after names, with nothing but blanks around them. -/
structure Style.Separates (style : Style) : Prop where
  item : ∃ b, Blanks b ∧ style.item = ',' :: b
  name : ∃ b, Blanks b ∧ style.name = ':' :: b
  printable : ∀ c ∈ style.item ++ style.name, Printable c

theorem Style.separates_compact : Style.compact.Separates :=
  ⟨⟨[], blanks_nil, rfl⟩, ⟨[], blanks_nil, rfl⟩, forall_mem_of_all (by decide)⟩

theorem Number.begins {s : List Char} {v : Value} (h : Number s v) : Begins s :=
  (Writes.number h).begins

/-- A number whose text reads as the number is read. -/
theorem isRead_renderFloat {x : Binary64} (h : readsBack x = true) :
    (Part.value (.float x)).IsRead (renderFloat x) ∧ Begins (renderFloat x) := by
  cases x with
  | nan => cases h
  | infinite negative =>
      cases negative with
      | true =>
          refine ⟨fun n rest hn _ => ?_, '-', _, rfl, by decide, by decide, by decide, by decide⟩
          exact (readValue_atom (by decide) (Nat.lt_of_lt_of_le (by decide) hn)).trans rfl
      | false =>
          refine ⟨fun n rest hn _ => ?_, 'I', _, rfl, by decide, by decide, by decide, by decide⟩
          exact (readValue_atom (by decide) (Nat.lt_of_lt_of_le (by decide) hn)).trans rfl
  | finite negative m e hcanonical =>
      obtain ⟨s, hs, htext⟩ := exists_text_finite negative m e hcanonical
      obtain ⟨y, hnumber, hread⟩ := readReal_unsigned negative hs
      have hback : Numeral.readReal (Binary64.finite negative m e hcanonical).text = .ok y := by
        rw [← hread, ← htext, String.ofList_toList]
      have hy : y = .finite negative m e hcanonical := by
        unfold readsBack at h
        dsimp only at h
        rw [hback] at h
        simpa using h
      rw [hy, ← htext] at hnumber
      exact ⟨isRead_number hnumber, hnumber.begins⟩

theorem isRead_renderString (s : String) :
    (Part.value (.string s)).IsRead (renderString s) ∧ Begins (renderString s) := by
  have hread := isRead_string (content_flatMap_escapeChar s.toList)
  rw [String.ofList_toList] at hread
  exact ⟨hread, '"', _, rfl, by decide, by decide, by decide, by decide⟩

/-- The members of an object that gives no name twice are set one after another. -/
theorem Members.setAll_eq_append {members given : Members}
    (h : ((members ++ given).map (·.1)).Nodup) : members.setAll given = members ++ given := by
  induction given generalizing members with
  | nil => exact (List.append_nil members).symm
  | cons m given ih =>
      have hset : ∀ {members : Members}, m.1 ∉ members.map (·.1) → members.set m.1 m.2 = members ++ [m] := by
        intro members hnot
        induction members with
        | nil => rfl
        | cons entry members ih =>
            obtain ⟨hne, hrest⟩ := List.ne_and_not_mem_of_not_mem_cons hnot
            rw [Members.set, if_neg (Ne.symm hne), ih hrest]
            rfl
      have hnot : m.1 ∉ members.map (·.1) := by
        rw [List.map_append, List.map_cons] at h
        intro hmem
        exact (List.nodup_append.mp h).2.2 _ hmem _ List.mem_cons_self rfl
      show (members.set m.1 m.2).setAll given = _
      rw [hset hnot, ih (by rwa [List.append_assoc]), List.append_assoc]
      rfl

theorem isFaithful_object (members : List (String × Value)) : (Value.object members).isFaithful =
    (decide (members.map (·.1)).Nodup && membersFaithful members) := rfl

theorem itemsFaithful_cons (v : Value) (rest : List Value) :
    itemsFaithful (v :: rest) = (v.isFaithful && itemsFaithful rest) := rfl

theorem membersFaithful_cons (member : String × Value) (rest : List (String × Value)) :
    membersFaithful (member :: rest) = (memberFaithful member && membersFaithful rest) := rfl

theorem memberFaithful_eq (member : String × Value) : memberFaithful member = member.2.isFaithful := by
  cases member
  rfl

theorem printable_renderFloat (x : Binary64) : ∀ c ∈ renderFloat x, Printable c := by
  cases x with
  | nan => exact forall_mem_of_all (by decide)
  | infinite negative =>
      cases negative with
      | true => exact forall_mem_of_all (by decide)
      | false => exact forall_mem_of_all (by decide)
  | finite negative m e hcanonical =>
      obtain ⟨s, hs, htext⟩ := exists_text_finite negative m e hcanonical
      intro c hc
      have hmem : c ∈ minus negative ++ s := htext ▸ hc
      exact (numeric_minus_append _ hs.numeric c hmem).plain.1

theorem printable_bracketed {first last : Char} {s : List Char} (hfirst : Printable first)
    (hs : ∀ c ∈ s, Printable c) (hlast : Printable last) : ∀ c ∈ first :: s ++ [last], Printable c := by
  intro c hc
  rcases List.mem_append.mp hc with hc | hc
  · exact List.forall_mem_cons.mpr ⟨hfirst, hs⟩ c hc
  · exact List.mem_singleton.mp hc ▸ hlast

theorem Style.Separates.printable_separated {style : Style} (hstyle : style.Separates) {s t : List Char}
    (hs : ∀ c ∈ s, Printable c) (ht : ∀ c ∈ t, Printable c) : ∀ c ∈ s ++ style.item ++ t, Printable c := by
  intro c hc
  rcases List.mem_append.mp hc with hc | hc
  · rcases List.mem_append.mp hc with hc | hc
    · exact hs c hc
    · exact hstyle.printable c (List.mem_append_left _ hc)
  · exact ht c hc

section render

variable {style : Style}

theorem isRead_renderInt {n : Int} (h : (Value.int n).isWritable = true) :
    (Part.value (.int n)).IsRead ((Value.int n).render style) ∧ Begins ((Value.int n).render style) := by
  rw [Value.isWritable_int] at h
  have hnumber := number_decimal (of_decide_eq_true h)
  exact ⟨isRead_number hnumber, hnumber.begins⟩

theorem isRead_renderArray {v : Value} {rest : List Value}
    (h : (Part.items (v :: rest)).IsRead (Value.renderItems style (v :: rest)))
    (hbegins : Begins (Value.renderItems style (v :: rest))) :
    (Part.value (.array (v :: rest))).IsRead ((Value.array (v :: rest)).render style) :=
  isRead_array blanks_nil hbegins h

theorem isRead_renderObject {m : String × Value} {rest : Members} (hnames : ((m :: rest).map (·.1)).Nodup)
    (h : (Part.members (m :: rest)).IsRead (Value.renderMembers style (m :: rest)))
    (hbegins : Begins (Value.renderMembers style (m :: rest))) :
    (Part.value (.object (m :: rest))).IsRead ((Value.object (m :: rest)).render style) := by
  have hread := isRead_object blanks_nil hbegins h
  rw [Members.setAll_eq_append hnames] at hread
  exact hread

variable (hstyle : style.Separates)
include hstyle

theorem isRead_renderItems_cons {v w : Value} {rest : List Value} (hv : (Part.value v).IsRead (v.render style))
    (h : (Part.items (w :: rest)).IsRead (Value.renderItems style (w :: rest)))
    (hbegins : Begins (Value.renderItems style (w :: rest))) :
    (Part.items (v :: w :: rest)).IsRead (Value.renderItems style (v :: w :: rest)) := by
  obtain ⟨b, hb, hitem⟩ := hstyle.item
  have hread := isRead_item blanks_nil hb hv hbegins h
  show (Part.items _).IsRead (v.render style ++ style.item ++ Value.renderItems style (w :: rest))
  rwa [hitem, List.append_assoc]

theorem isRead_renderMember_of {name : String} {v : Value} (hv : (Part.value v).IsRead (v.render style))
    (hbegins : Begins (v.render style)) :
    (Part.member (name, v)).IsRead (Value.renderMember style (name, v)) := by
  obtain ⟨b, hb, hname⟩ := hstyle.name
  have hread := isRead_member (content_flatMap_escapeChar name.toList) blanks_nil hb hbegins hv
  rw [String.ofList_toList] at hread
  show (Part.member _).IsRead (renderString name ++ style.name ++ v.render style)
  rw [hname]
  unfold renderString
  simpa using hread

theorem isRead_renderMembers_cons {m m' : String × Value} {rest : Members}
    (hm : (Part.member m).IsRead (Value.renderMember style m))
    (h : (Part.members (m' :: rest)).IsRead (Value.renderMembers style (m' :: rest)))
    (hbegins : Begins (Value.renderMembers style (m' :: rest))) :
    (Part.members (m :: m' :: rest)).IsRead (Value.renderMembers style (m :: m' :: rest)) := by
  obtain ⟨b, hb, hitem⟩ := hstyle.item
  have hread := isRead_memberAnd blanks_nil hb hm hbegins h
  show (Part.members _).IsRead
    (Value.renderMember style m ++ style.item ++ Value.renderMembers style (m' :: rest))
  rwa [hitem, List.append_assoc]

omit hstyle

mutual

/-- What is written for a value is read as the value. -/
theorem isRead_render (hstyle : style.Separates) (v : Value) (hw : v.isWritable = true) (h : v.isFaithful = true) :
    (Part.value v).IsRead (v.render style) ∧ Begins (v.render style) := by
  cases v with
  | null => exact ⟨isRead_of_writes .null, Writes.null.begins⟩
  | bool b =>
      cases b with
      | true => exact ⟨isRead_of_writes .yes, Writes.yes.begins⟩
      | false => exact ⟨isRead_of_writes .no, Writes.no.begins⟩
  | int n => exact isRead_renderInt hw
  | float x => exact isRead_renderFloat h
  | string s => exact isRead_renderString s
  | array items =>
      refine ⟨?_, '[', _, rfl, by decide, by decide, by decide, by decide⟩
      cases items with
      | nil => exact isRead_emptyArray blanks_nil
      | cons v rest =>
          obtain ⟨hread, hbegins⟩ := isRead_renderItems hstyle (v :: rest) hw h nofun
          exact isRead_renderArray hread hbegins
  | object members =>
      refine ⟨?_, '\x7b', _, rfl, by decide, by decide, by decide, by decide⟩
      rw [isFaithful_object, Bool.and_eq_true, decide_eq_true_iff] at h
      cases members with
      | nil => exact isRead_emptyObject blanks_nil
      | cons m rest =>
          obtain ⟨hread, hbegins⟩ := isRead_renderMembers hstyle (m :: rest) hw h.2 nofun
          exact isRead_renderObject h.1 hread hbegins
termination_by structural v

theorem isRead_renderItems (hstyle : style.Separates) (items : List Value)
    (hw : Value.itemsWritable items = true) (h : itemsFaithful items = true) (hne : items ≠ []) :
    (Part.items items).IsRead (Value.renderItems style items) ∧
      Begins (Value.renderItems style items) := by
  cases items with
  | nil => exact absurd rfl hne
  | cons v rest =>
      rw [Value.itemsWritable_cons, Bool.and_eq_true] at hw
      rw [itemsFaithful_cons, Bool.and_eq_true] at h
      obtain ⟨hv, hbegins⟩ := isRead_render hstyle v hw.1 h.1
      cases rest with
      | nil =>
          have hread := isRead_lastItem blanks_nil hv
          rw [List.append_nil] at hread
          exact ⟨hread, hbegins⟩
      | cons w rest =>
          obtain ⟨hread, hrest⟩ := isRead_renderItems hstyle (w :: rest) hw.2 h.2 nofun
          refine ⟨isRead_renderItems_cons hstyle hv hread hrest, ?_⟩
          exact (hbegins.append style.item).append _
termination_by structural items

theorem isRead_renderMembers (hstyle : style.Separates) (members : List (String × Value))
    (hw : Value.membersWritable members = true) (h : membersFaithful members = true) (hne : members ≠ []) :
    (Part.members members).IsRead (Value.renderMembers style members) ∧
      Begins (Value.renderMembers style members) := by
  cases members with
  | nil => exact absurd rfl hne
  | cons m rest =>
      rw [Value.membersWritable_cons, Bool.and_eq_true] at hw
      rw [membersFaithful_cons, Bool.and_eq_true] at h
      obtain ⟨hm, hbegins⟩ := isRead_renderMember hstyle m hw.1 h.1
      cases rest with
      | nil =>
          have hread := isRead_lastMember blanks_nil hm
          rw [List.append_nil] at hread
          exact ⟨hread, hbegins⟩
      | cons m' rest =>
          obtain ⟨hread, hrest⟩ := isRead_renderMembers hstyle (m' :: rest) hw.2 h.2 nofun
          refine ⟨isRead_renderMembers_cons hstyle hm hread hrest, ?_⟩
          exact (hbegins.append style.item).append _
termination_by structural members

theorem isRead_renderMember (hstyle : style.Separates) (member : String × Value)
    (hw : Value.memberWritable member = true) (h : memberFaithful member = true) :
    (Part.member member).IsRead (Value.renderMember style member) ∧
      Begins (Value.renderMember style member) := by
  obtain ⟨name, v⟩ := member
  obtain ⟨hv, hbegins⟩ := isRead_render hstyle v hw h
  exact ⟨isRead_renderMember_of hstyle hv hbegins, '"', _, rfl, by decide, by decide, by decide, by decide⟩
termination_by structural member

end

/-! ### Characters -/

mutual

/-- What is written for a value is printable. -/
theorem printable_render (hstyle : style.Separates) (v : Value) : ∀ c ∈ v.render style, Printable c := by
  cases v with
  | null => exact forall_mem_of_all (s := "null".toList) (by decide)
  | bool b =>
      cases b with
      | true => exact forall_mem_of_all (s := "true".toList) (by decide)
      | false => exact forall_mem_of_all (s := "false".toList) (by decide)
  | int n =>
      intro c hc
      rcases Numeral.of_mem_decimal hc with h | rfl
      · exact printable_of_isDigit h
      · decide
  | float x => exact printable_renderFloat x
  | string s => exact fun c hc => printable_renderString hc
  | array items => exact printable_bracketed (by decide) (printable_renderItems hstyle items) (by decide)
  | object members =>
      exact printable_bracketed (by decide) (printable_renderMembers hstyle members) (by decide)
termination_by structural v

theorem printable_renderItems (hstyle : style.Separates) (items : List Value) :
    ∀ c ∈ Value.renderItems style items, Printable c := by
  cases items with
  | nil => exact fun c hc => absurd hc List.not_mem_nil
  | cons v rest =>
      have hv := printable_render hstyle v
      cases rest with
      | nil => exact hv
      | cons w rest => exact hstyle.printable_separated hv (printable_renderItems hstyle (w :: rest))
termination_by structural items

theorem printable_renderMembers (hstyle : style.Separates) (members : List (String × Value)) :
    ∀ c ∈ Value.renderMembers style members, Printable c := by
  cases members with
  | nil => exact fun c hc => absurd hc List.not_mem_nil
  | cons m rest =>
      have hm := printable_renderMember hstyle m
      cases rest with
      | nil => exact hm
      | cons m' rest => exact hstyle.printable_separated hm (printable_renderMembers hstyle (m' :: rest))
termination_by structural members

theorem printable_renderMember (hstyle : style.Separates) (member : String × Value) :
    ∀ c ∈ Value.renderMember style member, Printable c := by
  obtain ⟨name, v⟩ := member
  have hv := printable_render hstyle v
  intro c hc
  rcases List.mem_append.mp hc with hc | hc
  · rcases List.mem_append.mp hc with hc | hc
    · exact printable_renderString hc
    · exact hstyle.printable c (List.mem_append_right _ hc)
  · exact hv c hc
termination_by structural member

end

end render

/-- A value is had back from its text. -/
theorem read_render {style : Style} (hstyle : style.Separates) {v : Value} (hw : v.isWritable = true)
    (h : v.isFaithful = true) : read (String.ofList (v.render style)) = .ok v := by
  obtain ⟨hread, hbegins⟩ := isRead_render hstyle v hw h
  have hchars := readChars_of_isRead blanks_nil hbegins hread .nil
  rw [List.nil_append, List.append_nil, if_pos (skipBlanks_of_blanks blanks_nil)] at hchars
  refine read_of_readChars ?_
  rwa [String.toList_ofList]

end GeoWorkload.Json
