import GeoWorkload.Proofs.TwisterWords
import Mathlib.Data.Nat.Digits.Lemmas

/-!
# The seeds of a twister

Seeding mixes the words of a key into a fixed state and then the places of its words.  Both are one kind of sweep over
the state: each word takes up the one before it and an addend (`Twister.mixWith`).  Where words have been swept, the
result tells what each of them was and, if that is known, what was added to it (`Twister.Swept`).  So the state that a
key leads to tells all that was added but for the first two addends and the last one
(`Twister.addend_eq_of_ofKey`), and so do the first `size` words that the twister gives out
(`Twister.addend_eq_of_given`).

Seeds of different magnitudes have different keys (`Twister.seedKey_eq_iff`).  If the magnitudes differ by less than
`2^32` and their keys have at most 621 words, then the twisters do not start with the same `size` words
(`Twister.natAbs_eq_of_given`).  Seeds further apart may lead to the same state, since a short key repeats and with each
of its words the place is added (`Twister.ofSeed_eq_ofSeed_two`).
-/

namespace GeoWorkload

namespace Twister

/-! ### Sweeps -/

/-- A word with the one before it mixed in. -/
def mixed (c : UInt32) (ws : Array UInt32) (i : Nat) : UInt32 := ws.getD i 0 ^^^ (fold30 (ws.getD (i - 1) 0) * c)

/-- Mixes addends into the state, from the `i`-th word on. -/
def mixWith (c : UInt32) : List UInt32 → Nat → Array UInt32 → Array UInt32 × Nat
  | [], i, ws => (ws, i)
  | a :: addends, i, ws =>
    let (ws, i) := advance (ws.setIfInBounds i (mixed c ws i + a)) i
    mixWith c addends i ws

/-- The words from the `i`-th on have been swept: each has taken up the one before it and its addend, and the others are
what they were. -/
structure Swept (c : UInt32) (i : Nat) (addends : List UInt32) (ws ws' : Array UInt32) : Prop where
  size : ws'.size = size
  word : ∀ k < addends.length, ws'.getD (i + k) 0 =
    (ws.getD (i + k) 0 ^^^ (fold30 (ws'.getD (i + k - 1) 0) * c)) + addends.getD k 0
  others : ∀ k, k < i ∨ i + addends.length ≤ k → ws'.getD k 0 = ws.getD k 0

/-- The state after its last word was swept: the first word takes the value of the last. -/
def wrapped (ws : Array UInt32) : Array UInt32 := ws.setIfInBounds 0 (ws.getD (size - 1) 0)

theorem swept_nil (c : UInt32) (i : Nat) {ws : Array UInt32} (hsize : ws.size = Twister.size) : Swept c i [] ws ws :=
  ⟨hsize, fun k hk => absurd hk (Nat.not_lt_zero k), fun _ _ => rfl⟩

/-- Sweeping one word and then those after it. -/
theorem Swept.cons {c a : UInt32} {addends : List UInt32} {i : Nat} {ws ws' : Array UInt32} (hfirst : 1 ≤ i)
    (hi : i < ws.size) (h : Swept c (i + 1) addends (ws.setIfInBounds i (mixed c ws i + a)) ws') :
    Swept c i (a :: addends) ws ws' := by
  obtain ⟨hsize, hword, hothers⟩ := h
  simp only [getD_setIfInBounds hi] at hword hothers
  refine ⟨hsize, fun k hk => ?_, fun k hk => ?_⟩
  · cases k with
    | zero =>
        have hthis := hothers i (Or.inl (Nat.lt_succ_self i))
        have hbefore := hothers (i - 1) (Or.inl (by omega))
        rw [if_pos rfl] at hthis
        rw [if_neg (by omega)] at hbefore
        rw [Nat.add_zero, hthis, hbefore]
        rfl
    | succ k =>
        have hnext := hword k (Nat.lt_of_succ_lt_succ hk)
        rw [if_neg (by omega), Nat.add_right_comm, Nat.add_assoc] at hnext
        exact hnext
  · rw [List.length_cons] at hk
    have hother := hothers k (by omega)
    rwa [if_neg (by omega)] at hother

/-- Mixing no more addends than there are words from the `i`-th on sweeps these words. -/
theorem exists_swept (c : UInt32) (addends : List UInt32) {i : Nat} (hfirst : 1 ≤ i) (hi : i < size)
    (hlast : i + addends.length ≤ size) {ws : Array UInt32} (hsize : ws.size = size) :
    ∃ ws', Swept c i addends ws ws' ∧ mixWith c addends i ws =
      if i + addends.length < size then (ws', i + addends.length) else (wrapped ws', 1) := by
  induction addends generalizing i ws with
  | nil =>
      refine ⟨ws, swept_nil c i hsize, ?_⟩
      rw [List.length_nil, Nat.add_zero, if_pos hi]
      rfl
  | cons a addends ih =>
      rw [List.length_cons] at hlast ⊢
      have hsize' : (ws.setIfInBounds i (mixed c ws i + a)).size = size := by rwa [Array.size_setIfInBounds]
      by_cases hnext : i + 1 < size
      · obtain ⟨ws', hswept, heq⟩ := ih (Nat.le_add_left 1 i) hnext (by omega) hsize'
        refine ⟨ws', hswept.cons hfirst (hsize ▸ hi), ?_⟩
        rw [mixWith, advance, if_pos hnext]
        dsimp only
        rw [heq, Nat.add_right_comm, Nat.add_assoc]
      · obtain rfl : addends = [] := List.length_eq_zero_iff.mp (by omega)
        refine ⟨_, (swept_nil c (i + 1) hsize').cons hfirst (hsize ▸ hi), ?_⟩
        rw [mixWith, advance, if_neg hnext, List.length_nil, if_neg (by omega)]
        rfl

section swept

variable {c : UInt32} {i : Nat} {addends addends' : List UInt32} {ws ws' r r' : Array UInt32}

/-- Results that agree in a word and the one before it come from the same word, if the addend was the same. -/
theorem Swept.word_eq (h : Swept c i addends ws r) (h' : Swept c i addends ws' r') {k : Nat} (hk : k < addends.length)
    (hword : r.getD (i + k) 0 = r'.getD (i + k) 0) (hbefore : r.getD (i + k - 1) 0 = r'.getD (i + k - 1) 0) :
    ws.getD (i + k) 0 = ws'.getD (i + k) 0 := by
  rw [h.word k hk, h'.word k hk, hbefore, UInt32.add_left_inj, UInt32.xor_left_inj] at hword
  exact hword

/-- Results that agree in a word and the one before it come from the same addend, if the word was the same. -/
theorem Swept.addend_eq (h : Swept c i addends ws r) (h' : Swept c i addends' ws r') {k : Nat}
    (hk : k < addends.length) (hk' : k < addends'.length) (hword : r.getD (i + k) 0 = r'.getD (i + k) 0)
    (hbefore : r.getD (i + k - 1) 0 = r'.getD (i + k - 1) 0) : addends.getD k 0 = addends'.getD k 0 := by
  rw [h.word k hk, h'.word k hk', hbefore, UInt32.add_right_inj] at hword
  exact hword

end swept

/-! ### Addends of a key -/

/-- What is added to the words that are mixed with a key, its word `j` first: words of the key and their places. -/
def keyAddends (key : Array UInt32) : (steps j : Nat) → List UInt32
  | 0, _ => []
  | steps + 1, j =>
    (key.getD j 0 + UInt32.ofNat j) :: keyAddends key steps (if j + 1 < key.size then j + 1 else 0)

/-- What is added to the words that are mixed with their places, from the `i`-th on. -/
def placeAddends : (steps i : Nat) → List UInt32
  | 0, _ => []
  | steps + 1, i => -UInt32.ofNat i :: placeAddends steps (if i + 1 < size then i + 1 else 1)

theorem mixKey_eq_mixWith (key : Array UInt32) (steps i j : Nat) (ws : Array UInt32) :
    mixKey key steps i j ws = mixWith 1664525 (keyAddends key steps j) i ws := by
  induction steps generalizing i j ws with
  | zero => rfl
  | succ steps ih =>
      rw [mixKey, keyAddends, mixWith, UInt32.add_assoc]
      exact ih _ _ _

theorem mixPlaces_eq_mixWith (steps i : Nat) (ws : Array UInt32) :
    mixPlaces steps i ws = (mixWith 1566083941 (placeAddends steps i) i ws).1 := by
  induction steps generalizing i ws with
  | zero => rfl
  | succ steps ih =>
      have hadvance : ∀ ws : Array UInt32, (advance ws i).2 = if i + 1 < size then i + 1 else 1 := by
        intro ws
        unfold advance
        split <;> rfl
      rw [mixPlaces, placeAddends, mixWith, UInt32.sub_eq_add_neg, ← hadvance]
      exact ih _ _

theorem length_keyAddends (key : Array UInt32) (steps j : Nat) : (keyAddends key steps j).length = steps := by
  induction steps generalizing j with
  | zero => rfl
  | succ steps ih => rw [keyAddends, List.length_cons, ih]

/-- The words of a key are added in turn, again and again. -/
theorem getD_keyAddends {key : Array UInt32} {steps j s : Nat} (hj : j < key.size) (hs : s < steps) :
    (keyAddends key steps j).getD s 0 =
      key.getD ((j + s) % key.size) 0 + UInt32.ofNat ((j + s) % key.size) := by
  induction steps generalizing j s with
  | zero => omega
  | succ steps ih =>
      cases s with
      | zero => rw [keyAddends, List.getD_cons_zero, Nat.add_zero, Nat.mod_eq_of_lt hj]
      | succ s =>
          rw [keyAddends, List.getD_cons_succ]
          by_cases hnext : j + 1 < key.size
          · rw [if_pos hnext, ih hnext (by omega), Nat.add_right_comm, Nat.add_assoc]
          · rw [if_neg hnext, ih (by omega) (by omega), Nat.zero_add,
              show j + (s + 1) = s + key.size by omega, Nat.add_mod_right]

theorem length_placeAddends (steps i : Nat) : (placeAddends steps i).length = steps := by
  induction steps generalizing i with
  | zero => rfl
  | succ steps ih => rw [placeAddends, List.length_cons, ih]

/-! ### The state of a key -/

theorem mixWith_append (c : UInt32) (addends more : List UInt32) (i : Nat) (ws : Array UInt32) :
    mixWith c (addends ++ more) i ws =
      mixWith c more (mixWith c addends i ws).2 (mixWith c addends i ws).1 := by
  induction addends generalizing i ws with
  | nil => rfl
  | cons a addends ih => exact ih _ _

theorem size_linearWords (seed : UInt32) : (linearWords seed).size = size := by
  have hfold : ∀ (f : Array UInt32 → Nat → UInt32) (l : List Nat) (ws : Array UInt32),
      (l.foldl (fun ws k => ws.push (f ws k)) ws).size = ws.size + l.length := by
    intro f l
    induction l with
    | nil => exact fun _ => rfl
    | cons k l ih =>
        intro ws
        rw [List.foldl_cons, ih, Array.size_push, List.length_cons]
        omega
  unfold linearWords
  rw [hfold, List.length_range]
  rfl

theorem size_wrapped (ws : Array UInt32) : (wrapped ws).size = ws.size := Array.size_setIfInBounds ..

theorem getD_wrapped {ws : Array UInt32} (hsize : ws.size = size) (k : Nat) :
    (wrapped ws).getD k 0 = if k = 0 then ws.getD (size - 1) 0 else ws.getD k 0 :=
  getD_setIfInBounds (by rw [hsize]; decide) _ k

/-- All elements of a list but the last, and the last. -/
theorem length_take_drop {l : List UInt32} {n : Nat} (h : l.length = n + 1) :
    (l.take n).length = n ∧ (l.drop n).length = 1 := by
  rw [List.length_take, List.length_drop, h]
  omega

/-- Mixing one addend more than there are words from the `i`-th on sweeps these words and then word 1. -/
theorem exists_swept_around (c : UInt32) (addends : List UInt32) {i : Nat} (hfirst : 1 ≤ i) (hi : i < size)
    (hlength : addends.length = size - i + 1) {ws : Array UInt32} (hsize : ws.size = size) :
    ∃ ws' ws'', Swept c i (addends.take (size - i)) ws ws' ∧
      Swept c 1 (addends.drop (size - i)) (wrapped ws') ws'' ∧ mixWith c addends i ws = (ws'', 2) := by
  obtain ⟨htake, hdrop⟩ := length_take_drop hlength
  have hsize₂ : 2 < size := by decide
  obtain ⟨ws', hswept, hmix⟩ := exists_swept c (addends.take (size - i)) hfirst hi (by omega) hsize
  obtain ⟨ws'', hswept', hmix'⟩ := exists_swept c (addends.drop (size - i)) (Nat.le_refl 1) (by omega) (by omega)
    ((size_wrapped ws').trans hswept.size)
  refine ⟨ws', ws'', hswept, hswept', ?_⟩
  rw [if_neg (by omega)] at hmix
  rw [hdrop, if_pos hsize₂] at hmix'
  conv => lhs; rw [← List.take_append_drop (size - i) addends]
  rw [mixWith_append, hmix, hmix']

/-- Seeding sweeps all words but the first with the addends of the key, and word 1 once more; then it sweeps all from
word 2 on with their places, and word 1 once more. -/
theorem exists_swept_ofKey {key : Array UInt32} (hkey : key.size ≤ size) : ∃ keyed keyed' placed placed',
    Swept 1664525 1 ((keyAddends key size 0).take (size - 1)) (linearWords 19650218) keyed ∧
    Swept 1664525 1 ((keyAddends key size 0).drop (size - 1)) (wrapped keyed) keyed' ∧
    Swept 1566083941 2 ((placeAddends (size - 1) 2).take (size - 2)) keyed' placed ∧
    Swept 1566083941 1 ((placeAddends (size - 1) 2).drop (size - 2)) (wrapped placed) placed' ∧
    ofKey key = ⟨placed'.setIfInBounds 0 0x80000000, size⟩ := by
  have hsize : 2 < size := by decide
  have hkeys := length_keyAddends key size 0
  have hplaces := length_placeAddends (size - 1) 2
  obtain ⟨keyed, keyed', hkeyed, hkeyed', hmix⟩ :=
    exists_swept_around 1664525 (keyAddends key size 0) (Nat.le_refl 1) (by omega) (by omega)
      (size_linearWords 19650218)
  obtain ⟨placed, placed', hplaced, hplaced', hmix'⟩ :=
    exists_swept_around 1566083941 (placeAddends (size - 1) 2) (Nat.le_succ 1) hsize (by omega) hkeyed'.size
  refine ⟨keyed, keyed', placed, placed', hkeyed, hkeyed', hplaced, hplaced', ?_⟩
  unfold ofKey
  rw [Nat.max_eq_left hkey, mixKey_eq_mixWith, hmix]
  dsimp only
  rw [mixPlaces_eq_mixWith, hmix']

/-- Words agree after the one at a place. -/
def AgreeAfter (place : Nat) (ws ws' : Array UInt32) : Prop := ∀ k, place < k → ws.getD k 0 = ws'.getD k 0

section around

variable {c : UInt32} {addends : List UInt32} {ws ws' r r' : Array UInt32}

/-- What has swept words from the second after a place on tells what these were. -/
theorem agreeAfter_of_swept {i place : Nat} (hplace : place + 1 < i) (h : Swept c i addends ws r)
    (h' : Swept c i addends ws' r') (hr : AgreeAfter place r r') : AgreeAfter place ws ws' := by
  intro k hk
  by_cases hin : i ≤ k ∧ k < i + addends.length
  · have hword := h.word_eq h' (k := k - i) (by omega) (hr _ (by omega)) (hr _ (by omega))
    rwa [Nat.add_sub_cancel' hin.1] at hword
  · rw [← h.others k (by omega), ← h'.others k (by omega)]
    exact hr k hk

/-- What has swept word 1 once more, after all words had been swept, tells what these were. -/
theorem agreeAfter_of_swept_first (hsize : ws.size = size) (hsize' : ws'.size = size)
    (h : Swept c 1 addends (wrapped ws) r) (h' : Swept c 1 addends (wrapped ws') r') (hlength : addends.length = 1)
    (hr : AgreeAfter 0 r r') : AgreeAfter 0 ws ws' := by
  have hlast : 1 < size - 1 := by decide
  have hothers : ∀ k, 1 < k → ws.getD k 0 = ws'.getD k 0 := by
    intro k hk
    have hword := hr k (by omega)
    rw [h.others k (by omega), h'.others k (by omega), getD_wrapped hsize, getD_wrapped hsize', if_neg (by omega),
      if_neg (by omega)] at hword
    exact hword
  have hzero : r.getD 0 0 = r'.getD 0 0 := by
    rw [h.others 0 (by omega), h'.others 0 (by omega), getD_wrapped hsize, getD_wrapped hsize', if_pos rfl,
      if_pos rfl]
    exact hothers _ hlast
  intro k hk
  rcases Nat.eq_or_lt_of_le hk with rfl | hk
  · have hword := h.word_eq h' (k := 0) (by omega) (hr 1 (by omega)) hzero
    rw [getD_wrapped hsize, getD_wrapped hsize', if_neg (by omega), if_neg (by omega)] at hword
    exact hword
  · exact hothers k hk

end around

/-- States that agree in all words but the first tell what their keys added, but for the first two addends and the last
one. -/
theorem addend_eq_of_ofKey {key key' : Array UInt32} (hkey : key.size ≤ size) (hkey' : key'.size ≤ size)
    (h : AgreeAfter 0 (ofKey key).words (ofKey key').words) {s : Nat} (hs : 2 ≤ s) (hs' : s + 1 < size) :
    (keyAddends key size 0).getD s 0 = (keyAddends key' size 0).getD s 0 := by
  obtain ⟨keyed, mixed, placed, last, hkeyed, hmixed, hplaced, hlast, hwords⟩ := exists_swept_ofKey hkey
  obtain ⟨keyed', mixed', placed', last', hkeyed', hmixed', hplaced', hlast', hwords'⟩ := exists_swept_ofKey hkey'
  obtain ⟨htake, hdrop⟩ := length_take_drop (n := size - 1) (length_keyAddends key size 0)
  obtain ⟨htake', hdrop'⟩ := length_take_drop (n := size - 1) (length_keyAddends key' size 0)
  have hdrop_places := (length_take_drop (n := size - 2) (length_placeAddends (size - 1) 2)).2
  -- from the last sweep back to the first
  have hagree_last : AgreeAfter 0 last last' := by
    intro k hk
    have hword := h k hk
    have hin : 0 < last.size ∧ 0 < last'.size := by
      rw [hlast.size, hlast'.size]
      decide
    rw [hwords, hwords'] at hword
    rwa [getD_setIfInBounds hin.1, getD_setIfInBounds hin.2, if_neg (by omega), if_neg (by omega)] at hword
  have hagree_placed : AgreeAfter 0 placed placed' :=
    agreeAfter_of_swept_first hplaced.size hplaced'.size hlast hlast' hdrop_places hagree_last
  have hagree_mixed : AgreeAfter 0 mixed mixed' :=
    agreeAfter_of_swept (by decide) hplaced hplaced' hagree_placed
  have hagree_keyed : AgreeAfter 1 keyed keyed' := by
    intro k hk
    have hword := hagree_mixed k (by omega)
    rw [hmixed.others k (by omega), hmixed'.others k (by omega), getD_wrapped hkeyed.size, getD_wrapped hkeyed'.size,
      if_neg (by omega), if_neg (by omega)] at hword
    exact hword
  have haddend := hkeyed.addend_eq hkeyed' (k := s) (by omega) (by omega) (hagree_keyed _ (by omega))
    (hagree_keyed _ (by omega))
  rwa [List.getD_eq_getElem?_getD, List.getD_eq_getElem?_getD, List.getElem?_take_of_lt (by omega),
    List.getElem?_take_of_lt (by omega), ← List.getD_eq_getElem?_getD, ← List.getD_eq_getElem?_getD] at haddend

/-- Twisters that give out the same words have keys that added the same, but for the first two addends and the last
one. -/
theorem addend_eq_of_given {key key' : Array UInt32} (hkey : key.size ≤ size) (hkey' : key'.size ≤ size)
    (hpos : 0 < key.size) (hpos' : 0 < key'.size) (h : given size (ofKey key) = given size (ofKey key')) {s : Nat}
    (hs : 2 ≤ s) (hs' : s + 1 < size) :
    key.getD (s % key.size) 0 + UInt32.ofNat (s % key.size) =
      key'.getD (s % key'.size) 0 + UInt32.ofNat (s % key'.size) := by
  have hagree : AgreeAfter 0 (ofKey key).words (ofKey key').words := by
    obtain ⟨_, _, _, last, _, _, _, hlast, hwords⟩ := exists_swept_ofKey hkey
    obtain ⟨_, _, _, last', _, _, _, hlast', hwords'⟩ := exists_swept_ofKey hkey'
    rw [hwords, hwords'] at h ⊢
    intro k hk
    refine (agreeFrom_of_given ?_ ?_ h).others k (by omega)
    · exact (Array.size_setIfInBounds ..).trans hlast.size
    · exact (Array.size_setIfInBounds ..).trans hlast'.size
  have haddend := addend_eq_of_ofKey hkey hkey' hagree hs hs'
  rwa [getD_keyAddends hpos (by omega), getD_keyAddends hpos' (by omega), Nat.zero_add] at haddend

/-- Keys that add the same lead to the same state. -/
theorem ofKey_eq_of_keyAddends {key key' : Array UInt32} (hkey : key.size ≤ size) (hkey' : key'.size ≤ size)
    (h : keyAddends key size 0 = keyAddends key' size 0) : ofKey key = ofKey key' := by
  unfold ofKey
  rw [Nat.max_eq_left hkey, Nat.max_eq_left hkey', mixKey_eq_mixWith, mixKey_eq_mixWith, h]

/-! ### Keys of seeds -/

/-- The words of a natural are its digits. -/
theorem map_toNat_wordsOf {count n : Nat} (h : n < 2 ^ (32 * count)) :
    (wordsOf count n).map UInt32.toNat = Nat.digits (2 ^ 32) n := by
  induction count generalizing n with
  | zero =>
      obtain rfl : n = 0 := Nat.lt_one_iff.mp h
      rw [Nat.digits_zero]
      rfl
  | succ count ih =>
      unfold wordsOf
      by_cases hzero : n = 0
      · rw [if_pos hzero, hzero, Nat.digits_zero]
        rfl
      · have hrest : n / 2 ^ 32 < 2 ^ (32 * count) := by
          rw [Nat.div_lt_iff_lt_mul (by decide), ← Nat.pow_add]
          exact h
        rw [if_neg hzero, List.map_cons, Nat.pow_eq, ih hrest, UInt32.toNat_ofNat',
          Nat.digits_def' (by decide) (Nat.pos_of_ne_zero hzero)]

/-- The words of a key are the digits of the magnitude of its seed, except that zero has one word. -/
theorem map_toNat_seedKey {seed : Int} (h : seed ≠ 0) :
    (seedKey seed).map UInt32.toNat = Nat.digits (2 ^ 32) seed.natAbs := by
  unfold seedKey
  rw [if_neg h]
  refine map_toNat_wordsOf (Nat.lt_of_lt_of_le Nat.lt_log2_self (Nat.pow_le_pow_right (by decide) ?_))
  omega

theorem length_seedKey (seed : Int) : (seedKey seed).length = Nat.log (2 ^ 32) seed.natAbs + 1 := by
  by_cases h : seed = 0
  · rw [h, Int.natAbs_zero, Nat.log_zero_right]
    rfl
  · rw [← List.length_map UInt32.toNat, map_toNat_seedKey h,
      Nat.length_digits _ _ (by decide) (Int.natAbs_ne_zero.mpr h)]

theorem toNat_getD_seedKey (seed : Int) (j : Nat) :
    ((seedKey seed).toArray.getD j 0).toNat = seed.natAbs / (2 ^ 32) ^ j % 2 ^ 32 := by
  have hmap : ((seedKey seed).toArray.getD j 0).toNat = ((seedKey seed).map UInt32.toNat).getD j 0 := by
    rw [List.getD_eq_getElem?_getD, List.getElem?_map, Array.getD_eq_getD_getElem?, List.getElem?_toArray]
    cases (seedKey seed)[j]? <;> rfl
  rw [hmap]
  by_cases h : seed = 0
  · rw [h, Int.natAbs_zero, Nat.zero_div]
    cases j <;> rfl
  · rw [map_toNat_seedKey h, Nat.getD_digits _ _ (by decide)]

theorem ofDigits_seedKey (seed : Int) : Nat.ofDigits (2 ^ 32) ((seedKey seed).map UInt32.toNat) = seed.natAbs := by
  by_cases h : seed = 0
  · rw [h]
    rfl
  · rw [map_toNat_seedKey h, Nat.ofDigits_digits]

/-- Seeds have the same key if they have the same magnitude, and only then. -/
theorem seedKey_eq_iff {seed seed' : Int} : seedKey seed = seedKey seed' ↔ seed.natAbs = seed'.natAbs := by
  constructor
  · intro h
    rw [← ofDigits_seedKey, h, ofDigits_seedKey]
  · intro h
    have hzero : seed = 0 ↔ seed' = 0 := by omega
    simp only [seedKey, h, hzero]

/-! ### Seeds near each other -/

/-- What the digit of a magnitude and its place come to that a step adds: digits are added in turn, again and again. -/
def stepSum (magnitude s : Nat) : Nat :=
  let place := s % (Nat.log (2 ^ 32) magnitude + 1)
  (magnitude / (2 ^ 32) ^ place + place) % 2 ^ 32

theorem stepSum_of_place {magnitude s : Nat} (place : Nat) (h : s % (Nat.log (2 ^ 32) magnitude + 1) = place) :
    stepSum magnitude s = (magnitude / (2 ^ 32) ^ place + place) % 2 ^ 32 := by
  rw [stepSum, h]

section magnitudes

variable {a b : Nat} (hlt : a < b) (hnear : b < a + 2 ^ 32)
include hlt hnear

/-- Where both add their lowest digits, the sums are different. -/
theorem stepSum_ne_of_lowest {s : Nat} (ha : s % (Nat.log (2 ^ 32) a + 1) = 0)
    (hb : s % (Nat.log (2 ^ 32) b + 1) = 0) : stepSum a s ≠ stepSum b s := by
  rw [stepSum_of_place 0 ha, stepSum_of_place 0 hb, Nat.pow_zero, Nat.div_one, Nat.div_one]
  omega

theorem log_eq_or_of_near :
    Nat.log (2 ^ 32) b = Nat.log (2 ^ 32) a ∨ Nat.log (2 ^ 32) b = Nat.log (2 ^ 32) a + 1 := by
  have hmono : Nat.log (2 ^ 32) a ≤ Nat.log (2 ^ 32) b := Nat.log_mono_right hlt.le
  have hhigh := Nat.lt_pow_succ_log_self (show 1 < 2 ^ 32 by decide) a
  have hunit : (2 ^ 32) ^ 1 ≤ (2 ^ 32) ^ (Nat.log (2 ^ 32) a + 1) := Nat.pow_le_pow_right (by decide) (by omega)
  have hbelow : b < (2 ^ 32) ^ (Nat.log (2 ^ 32) a + 1 + 1) := by
    rw [Nat.pow_succ]
    rw [Nat.pow_one] at hunit
    omega
  have hlog := Nat.log_lt_of_lt_pow (show b ≠ 0 by omega) hbelow
  omega

/-- A magnitude that has one digit more than one near it is a one, zeros and a lowest digit, while the other one has the
greatest digits where that one has zeros. -/
theorem exists_stepSum_ne_of_longer (hlog : Nat.log (2 ^ 32) b = Nat.log (2 ^ 32) a + 1) :
    ∃ s, 2 ≤ s ∧ s ≤ 4 ∧ stepSum a s ≠ stepSum b s := by
  have hlow := Nat.pow_log_le_self (2 ^ 32) (show b ≠ 0 by omega)
  have hhigh := Nat.lt_pow_succ_log_self (show 1 < 2 ^ 32 by decide) a
  rw [hlog] at hlow
  rcases hp : Nat.log (2 ^ 32) a with _ | _ | p
  · exact ⟨2, Nat.le_refl 2, by decide, stepSum_ne_of_lowest hlt hnear (by rw [hp]) (by rw [hlog, hp])⟩
  · rw [hp] at hlow hhigh
    by_cases htwo : stepSum a 2 = stepSum b 2
    · refine ⟨4, by decide, Nat.le_refl 4, ?_⟩
      rw [stepSum_of_place 0 (by rw [hp]), stepSum_of_place 2 (by rw [hlog, hp])] at htwo
      rw [stepSum_of_place 0 (by rw [hp]), stepSum_of_place 1 (by rw [hlog, hp])]
      have hhighest : b / (2 ^ 32) ^ 2 = 1 := by omega
      have hmiddle : b / (2 ^ 32) ^ 1 = 2 ^ 32 := by omega
      rw [hhighest] at htwo
      rw [hmiddle]
      omega
    · exact ⟨2, Nat.le_refl 2, by decide, htwo⟩
  · refine ⟨2, Nat.le_refl 2, by decide, ?_⟩
    rw [hp] at hlow hhigh
    rw [stepSum_of_place 2 (by rw [hp]; exact Nat.mod_eq_of_lt (by omega)),
      stepSum_of_place 2 (by rw [hlog, hp]; exact Nat.mod_eq_of_lt (by omega))]
    have hsplit : (2 ^ 32) ^ (p + 1 + 1 + 1) = (2 ^ 32) ^ (p + 1) * (2 ^ 32) ^ 2 := by rw [← Nat.pow_add]
    have hcarry : b / (2 ^ 32) ^ 2 = a / (2 ^ 32) ^ 2 + 1 := by
      rw [Nat.succ_eq_add_one, hsplit] at hhigh
      rw [hsplit] at hlow
      omega
    omega

/-- Magnitudes that differ by less than `2^32` add different sums in one of the steps. -/
theorem exists_stepSum_ne : ∃ s, 2 ≤ s ∧ (s ≤ 4 ∨ s ≤ Nat.log (2 ^ 32) a + 1) ∧ stepSum a s ≠ stepSum b s := by
  rcases log_eq_or_of_near hlt hnear with hsame | hmore
  · rcases Nat.eq_zero_or_pos (Nat.log (2 ^ 32) a) with hzero | hpos
    · refine ⟨2, Nat.le_refl 2, Or.inl (by decide), stepSum_ne_of_lowest hlt hnear ?_ ?_⟩
      · rw [hzero]
      · rw [hsame, hzero]
    · refine ⟨Nat.log (2 ^ 32) a + 1, by omega, Or.inr (Nat.le_refl _), stepSum_ne_of_lowest hlt hnear ?_ ?_⟩
      · exact Nat.mod_self _
      · rw [hsame, Nat.mod_self]
  · obtain ⟨s, hs, hfew, hne⟩ := exists_stepSum_ne_of_longer hlt hnear hmore
    exact ⟨s, hs, Or.inl hfew, hne⟩

end magnitudes

section near

variable {seed seed' : Int} (hsize : (seedKey seed).length ≤ 621) (hsize' : (seedKey seed').length ≤ 621)
  (h : given size (ofSeed seed) = given size (ofSeed seed'))
include hsize hsize' h

/-- Twisters that give out the same words have added the same sums. -/
theorem stepSum_eq_of_given {s : Nat} (hs : 2 ≤ s) (hs' : s + 1 < size) :
    stepSum seed.natAbs s = stepSum seed'.natAbs s := by
  have hlength : ∀ {seed : Int}, (seedKey seed).length ≤ 621 →
      (seedKey seed).toArray.size ≤ size ∧ 0 < (seedKey seed).toArray.size := by
    intro seed hseed
    rw [List.size_toArray]
    refine ⟨Nat.le_trans hseed (by decide), ?_⟩
    rw [length_seedKey]
    exact Nat.succ_pos _
  have haddend := addend_eq_of_given (hlength hsize).1 (hlength hsize').1 (hlength hsize).2 (hlength hsize').2 h hs hs'
  have hsum := congrArg UInt32.toNat haddend
  simp only [UInt32.toNat_add, toNat_getD_seedKey, UInt32.toNat_ofNat', List.size_toArray, length_seedKey,
    ← Nat.add_mod] at hsum
  exact hsum

theorem not_lt_of_given (hnear : seed'.natAbs < seed.natAbs + 2 ^ 32) : ¬ seed.natAbs < seed'.natAbs := by
  intro hlt
  obtain ⟨s, hs, hbound, hne⟩ := exists_stepSum_ne hlt hnear
  refine hne (stepSum_eq_of_given hsize hsize' h hs ?_)
  rw [length_seedKey] at hsize
  unfold size
  omega

end near

/-- Seeds whose magnitudes differ, but by less than `2^32`, lead to twisters that give out different words. -/
theorem natAbs_eq_of_given {seed seed' : Int} (hsize : (seedKey seed).length ≤ 621)
    (hsize' : (seedKey seed').length ≤ 621) (hnear : seed.natAbs < seed'.natAbs + 2 ^ 32)
    (hnear' : seed'.natAbs < seed.natAbs + 2 ^ 32) (h : given size (ofSeed seed) = given size (ofSeed seed')) :
    seed.natAbs = seed'.natAbs :=
  Nat.le_antisymm (Nat.not_lt.mp (not_lt_of_given hsize' hsize h.symm hnear))
    (Nat.not_lt.mp (not_lt_of_given hsize hsize' h hnear'))

/-- Seeds further apart may lead to the same twister: here the key of one is `[2, 1]`, of which the second word and its
place add as much as the first, and that of the other is `[2]`. -/
theorem ofSeed_eq_ofSeed_two : ofSeed (2 ^ 32 + 2) = ofSeed 2 := by
  have hlong : seedKey (2 ^ 32 + 2) = [2, 1] := by decide +kernel
  have hshort : seedKey 2 = [2] := by decide +kernel
  have hadds : ∀ steps, keyAddends #[2, 1] steps 0 = List.replicate steps 2 ∧
      keyAddends #[2, 1] steps 1 = List.replicate steps 2 ∧ keyAddends #[2] steps 0 = List.replicate steps 2 := by
    intro steps
    induction steps with
    | zero => exact ⟨rfl, rfl, rfl⟩
    | succ steps ih =>
        exact ⟨congrArg (List.cons 2) ih.2.1, congrArg (List.cons 2) ih.1, congrArg (List.cons 2) ih.2.2⟩
  unfold ofSeed
  rw [hlong, hshort]
  exact ofKey_eq_of_keyAddends (by decide) (by decide) ((hadds size).1.trans (hadds size).2.2.symm)

end Twister

end GeoWorkload
