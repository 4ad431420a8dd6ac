import GeoWorkload.Proofs.Columns
import GeoWorkload.Proofs.StoreLaws
import GeoWorkload.Tokens.Storage

/-!
# What the token passes store

The texts kept for a field in the slots from zero on are a column (`Schema.column`).  Keeping the tokens of a
slot takes the last value of the column before the slot where there is no token and changes no other
slot (`storeTokens_ensures`).  The repair pass fills the leading places of every column,
and however it ends it has only put texts where there were none (`backfillLeading_ensures`).
-/

namespace GeoWorkload

/-- The texts kept for a field in the slots from zero on. -/
def Schema.column (S : Schema) (m : MemoryStore) (path : Label) (j : Nat) : Option String :=
  m.get? (S.fieldKey path j)

open Column MemoryBacked

variable {σ : Type} [CounterStore σ] [MemoryBacked σ] {S : Schema} {path : Label}

/-! ### Searching -/

theorem seekBack_ensures (hS : S.KeysDistinct) (hp : path ∈ S.fieldPaths) (n : Nat) (s : σ) :
    (seekBack S path n).Ensures s
      (fun found s' => memory s' = memory s ∧ found = lastSome (S.column (memory s) path) n)
      fun _ s' => memory s' = memory s ∧ mayRefuse σ := by
  induction n generalizing s with
  | zero =>
      unfold seekBack
      exact Action.ensures_pure.mpr ⟨rfl, rfl⟩
  | succ n ih =>
      unfold seekBack
      refine (get_ensures (hS.fieldKey_isText hp n) s).bind ?_ fun _ _ h => h
      rintro found s' ⟨hfound, hs'⟩
      have hcol : S.column (memory s) path n = found := hfound.symm
      cases found with
      | some value =>
          refine Action.ensures_pure.mpr ⟨hs', ?_⟩
          rw [lastSome, hcol]
          rfl
      | none =>
          refine (ih s').mono ?_ ?_
          · rintro found' s'' ⟨hs'', rfl⟩
            refine ⟨hs''.trans hs', ?_⟩
            rw [lastSome, hcol, hs']
            rfl
          · rintro _ s'' ⟨hs'', hrefuse⟩
            exact ⟨hs''.trans hs', hrefuse⟩

theorem seekForward_ensures (hS : S.KeysDistinct) (hp : path ∈ S.fieldPaths) (n i : Nat) (s : σ) :
    (seekForward S path n i).Ensures s
      (fun found s' => memory s' = memory s ∧ IsFirst (S.column (memory s) path) i n found)
      fun _ s' => memory s' = memory s ∧ mayRefuse σ := by
  induction n generalizing i s with
  | zero =>
      unfold seekForward
      exact Action.ensures_pure.mpr ⟨rfl, fun j hj hj' => by omega⟩
  | succ n ih =>
      unfold seekForward
      refine (get_ensures (hS.fieldKey_isText hp i) s).bind ?_ fun _ _ h => h
      rintro found s' ⟨hfound, hs'⟩
      have hcol : S.column (memory s) path i = found := hfound.symm
      cases found with
      | some value =>
          exact Action.ensures_pure.mpr ⟨hs', Nat.le_refl i, by omega, hcol, fun j hj hj' => by omega⟩
      | none =>
          refine (ih (i + 1) s').mono ?_ ?_
          · rintro found' s'' ⟨hs'', hfirst⟩
            rw [hs'] at hfirst
            refine ⟨hs''.trans hs', ?_⟩
            have hstep : ∀ j, i ≤ j → (i + 1 ≤ j → S.column (memory s) path j = none) →
                S.column (memory s) path j = none := by
              intro j hj h
              rcases Nat.eq_or_lt_of_le hj with rfl | hlt
              · exact hcol
              · exact h hlt
            cases found' with
            | none => exact fun j hj hj' => hstep j hj fun hlt => hfirst j hlt (by omega)
            | some first =>
                obtain ⟨hle, hlt, hv, hnone⟩ := hfirst
                exact ⟨by omega, by omega, hv, fun j hj hj' => hstep j hj fun h => hnone j h hj'⟩
          · rintro _ s'' ⟨hs'', hrefuse⟩
            exact ⟨hs''.trans hs', hrefuse⟩

/-! ### Copying down -/

/-- A text has been put into the slots of a field from `k` to below `n`, and nothing else was changed. -/
structure Copied (S : Schema) (path : Label) (value : String) (k n : Nat) (m m' : MemoryStore) :
    Prop where
  within : ∀ j : Nat, k ≤ j → j < n → m'.get? (S.fieldKey path j) = some value
  outside : ∀ key, (∀ j : Nat, k ≤ j → j < n → key ≠ S.fieldKey path j) → m'.get? key = m.get? key

theorem Copied.refl (value : String) (n : Nat) (m : MemoryStore) : Copied S path value n n m m :=
  ⟨fun j hj hj' => by omega, fun _ _ => rfl⟩

/-- A text put into slot `n` and then into slots below it. -/
theorem Copied.of_put (hS : S.KeysDistinct) (hp : path ∈ S.fieldPaths) {value : String} {k n : Nat}
    {m m' : MemoryStore} (hk : k ≤ n)
    (h : Copied S path value k n (m.put (S.fieldKey path n) value) m') :
    Copied S path value k (n + 1) m m' := by
  have hput := MemoryStore.get?_put_of_isText (hS.fieldKey_isText hp n) m value
  constructor
  · intro j hj hj'
    rcases Nat.lt_succ_iff_lt_or_eq.mp hj' with hlt | rfl
    · exact h.within j hj hlt
    · rw [h.outside _ fun i _ hi e => ?_, hput, if_pos rfl]
      have := (hS.fieldKey_inj hp hp e).2
      omega
  · intro key hkey
    rw [h.outside key fun j hj hj' => hkey j hj (by omega), hput, if_neg (hkey n hk (by omega))]

theorem Copied.column (hS : S.KeysDistinct) (hp : path ∈ S.fieldPaths) {value : String} {k n : Nat}
    {m m' : MemoryStore} (h : Copied S path value k n m m') (j : Nat) :
    S.column m' path j = if k ≤ j ∧ j < n then some value else S.column m path j := by
  split
  · rename_i hj
    exact h.within j hj.1 hj.2
  · rename_i hj
    refine h.outside _ fun i hi hi' e => hj ?_
    have := (hS.fieldKey_inj hp hp e).2
    omega

theorem copyDown_ensures (hS : S.KeysDistinct) (hp : path ∈ S.fieldPaths) (value : String) (n : Nat)
    (s : σ) : (copyDown S path value n).Ensures s
      (fun _ s' => Copied S path value 0 n (memory s) (memory s'))
      fun _ s' => (∃ k ≤ n, Copied S path value k n (memory s) (memory s')) ∧ mayRefuse σ := by
  induction n generalizing s with
  | zero =>
      unfold copyDown
      exact Action.ensures_pure.mpr (Copied.refl value 0 _)
  | succ n ih =>
      unfold copyDown
      refine (set_ensures (hS.fieldKey_isText hp n) value s).bind ?_ ?_
      · intro _ s' hs'
        refine (ih s').mono ?_ ?_
        · intro _ s'' h
          rw [hs'] at h
          exact h.of_put hS hp (Nat.zero_le n)
        · rintro _ s'' ⟨⟨k, hk, h⟩, hrefuse⟩
          rw [hs'] at h
          exact ⟨⟨k, by omega, h.of_put hS hp hk⟩, hrefuse⟩
      · rintro _ s' ⟨hs', hrefuse⟩
        exact ⟨⟨n + 1, Nat.le_refl _, hs' ▸ Copied.refl value (n + 1) _⟩, hrefuse⟩

/-! ### The repair of a field -/

/-- What filling leading places can do: no text is changed, and new ones stand for fields of `paths` in
slots from zero to before `slot`. -/
structure OnlyFills (S : Schema) (paths : List Label) (slot : Int) (m m' : MemoryStore) : Prop where
  kept : ∀ key text, m.get? key = some text → m'.get? key = some text
  made : ∀ key, m.get? key = none → m'.get? key ≠ none →
    ∃ p ∈ paths, ∃ j : Nat, (j : Int) < slot ∧ key = S.fieldKey p j

theorem OnlyFills.refl (paths : List Label) (slot : Int) (m : MemoryStore) :
    OnlyFills S paths slot m m :=
  ⟨fun _ _ h => h, fun _ h h' => absurd h h'⟩

theorem OnlyFills.trans {paths paths' : List Label} {slot : Int} {m m' m'' : MemoryStore}
    (h : OnlyFills S paths slot m m') (h' : OnlyFills S paths' slot m' m'') :
    OnlyFills S (paths ++ paths') slot m m'' := by
  refine ⟨fun key text hkey => h'.kept _ _ (h.kept _ _ hkey), fun key hnone hsome => ?_⟩
  rcases hmid : m'.get? key with _ | text
  · obtain ⟨p, hp, j, hj⟩ := h'.made key hmid hsome
    exact ⟨p, List.mem_append_right _ hp, j, hj⟩
  · obtain ⟨p, hp, j, hj⟩ := h.made key hnone (by simp [hmid])
    exact ⟨p, List.mem_append_left _ hp, j, hj⟩

/-- Copies into slots that have no value, all before `slot`, only fill. -/
theorem Copied.onlyFills {value : String} {k n : Nat} {slot : Int} {m m' : MemoryStore}
    (h : Copied S path value k n m m') (hn : (n : Int) ≤ slot)
    (hnone : ∀ j < n, S.column m path j = none) : OnlyFills S [path] slot m m' := by
  constructor
  · intro key text hkey
    rw [h.outside key fun j hj hj' e => ?_, hkey]
    have hj : m.get? (S.fieldKey path j) = none := hnone j hj'
    rw [← e, hkey] at hj
    cases hj
  · intro key hkey hsome
    by_contra hout
    refine hsome ((h.outside key fun j _ hj' e => ?_).trans hkey)
    exact hout ⟨path, List.mem_singleton_self path, j, by omega, e⟩

/-- The leading places of a column have been filled, and nothing else was changed. -/
structure FieldRepaired (S : Schema) (path : Label) (n : Nat) (m m' : MemoryStore) : Prop where
  filled : ∀ j < n, S.column m' path j = leadingFilled (S.column m path) n j
  outside : ∀ key, (∀ j : Nat, j < n → key ≠ S.fieldKey path j) → m'.get? key = m.get? key

/-- Copying the first value into the places before it fills the leading places. -/
theorem Copied.fieldRepaired (hS : S.KeysDistinct) (hp : path ∈ S.fieldPaths) {value : String}
    {k n : Nat} {m m' : MemoryStore} (h : Copied S path value 0 k m m')
    (hfirst : IsFirst (S.column m path) 0 n (some (k, value))) : FieldRepaired S path n m m' := by
  constructor
  · intro j _
    rw [leadingFilled_of_isFirst hfirst, h.column hS hp]
    simp
  · have hk := hfirst.2.1
    exact fun key hkey => h.outside key fun j _ hj => hkey j (by omega)

/-- A column without a value has no leading places to be filled. -/
theorem FieldRepaired.refl {n : Nat} {m : MemoryStore}
    (hnone : IsFirst (S.column m path) 0 n none) : FieldRepaired S path n m m := by
  refine ⟨fun j hj => ?_, fun _ _ => rfl⟩
  unfold leadingFilled
  split
  · rw [firstSome_of_isFirst hnone]
    exact hnone j (by omega) (by omega)
  · rfl

/-- What a repair of the columns of `paths` leaves that may have been cut short: filling the leading places
still comes to what it came to before, and nothing else was changed. -/
structure Resumable (S : Schema) (paths : List Label) (n : Nat) (m m' : MemoryStore) : Prop where
  filled : ∀ p ∈ paths, ∀ j < n, leadingFilled (S.column m' p) n j = leadingFilled (S.column m p) n j
  outside : ∀ key, (∀ p ∈ paths, ∀ j : Nat, j < n → key ≠ S.fieldKey p j) → m'.get? key = m.get? key

namespace Resumable

variable {paths paths' : List Label} {n : Nat} {m m' m'' : MemoryStore}

theorem refl (paths : List Label) (n : Nat) (m : MemoryStore) : Resumable S paths n m m :=
  ⟨fun _ _ _ _ => rfl, fun _ _ => rfl⟩

theorem trans (h : Resumable S paths n m m') (h' : Resumable S paths n m' m'') :
    Resumable S paths n m m'' :=
  ⟨fun p hp j hj => (h'.filled p hp j hj).trans (h.filled p hp j hj),
    fun key hkey => (h'.outside key hkey).trans (h.outside key hkey)⟩

theorem mono (hS : S.KeysDistinct) (hpaths : ∀ p ∈ paths', p ∈ S.fieldPaths)
    (hsub : ∀ p ∈ paths, p ∈ paths') (h : Resumable S paths n m m') : Resumable S paths' n m m' := by
  refine ⟨fun p hp j hj => ?_, fun key hkey => h.outside key fun p hp => hkey p (hsub p hp)⟩
  by_cases hin : p ∈ paths
  · exact h.filled p hin j hj
  · refine leadingFilled_congr (fun i _ => h.outside _ fun q hq i' _ e => hin ?_) hj
    exact (hS.fieldKey_inj (hpaths p hp) (hpaths q (hsub q hq)) e).1 ▸ hq

/-- The first value of a column stays what it was. -/
theorem firstSome_column (h : Resumable S paths n m m') {p : Label} (hp : p ∈ paths) :
    firstSome (S.column m' p) n = firstSome (S.column m p) n := by
  rw [← firstSome_leadingFilled, firstSome_congr (h.filled p hp), firstSome_leadingFilled]

end Resumable

/-- A repair that is done can be done again. -/
theorem FieldRepaired.resumable {n : Nat} {m m' : MemoryStore} (h : FieldRepaired S path n m m') :
    Resumable S [path] n m m' := by
  constructor
  · intro p hp j hj
    rw [List.mem_singleton.mp hp, leadingFilled_congr h.filled hj, leadingFilled_leadingFilled]
  · exact fun key hkey => h.outside key (hkey path (List.mem_singleton_self path))

/-- A copy of the first value that was cut short before it came to the first place can be resumed. -/
theorem Copied.resumable (hS : S.KeysDistinct) (hp : path ∈ S.fieldPaths) {value : String} {k i n : Nat}
    {m m' : MemoryStore} (h : Copied S path value k i m m') (hk : k ≤ i)
    (hfirst : IsFirst (S.column m path) 0 n (some (i, value))) : Resumable S [path] n m m' := by
  constructor
  · intro p hmem j hj
    rw [List.mem_singleton.mp hmem]
    exact leadingFilled_of_copied hfirst hk (fun j _ => h.column hS hp j) hj
  · have hi := hfirst.2.1
    exact fun key hkey => h.outside key fun j _ hj =>
      hkey path (List.mem_singleton_self path) j (by omega)

theorem backfillField_ensures (hS : S.KeysDistinct) (hp : path ∈ S.fieldPaths) (slot : Int) (s : σ) :
    (backfillField S slot path).Ensures s
      (fun found s' => FieldRepaired S path (slot + 1).toNat (memory s) (memory s') ∧
        OnlyFills S [path] slot (memory s) (memory s') ∧
        found = (firstSome (S.column (memory s) path) (slot + 1).toNat).isSome)
      fun _ s' => Resumable S [path] (slot + 1).toNat (memory s) (memory s') ∧
        OnlyFills S [path] slot (memory s) (memory s') ∧ mayRefuse σ := by
  unfold backfillField
  refine (seekForward_ensures hS hp _ 0 s).bind ?_ ?_
  · rintro found s' ⟨hs', hfirst⟩
    have hval := firstSome_of_isFirst hfirst
    cases found with
    | none =>
        refine Action.Ensures.bind (Action.ensures_log.mpr ?_) (fun _ _ h => Action.ensures_pure.mpr h)
          fun _ _ h => h
        rw [hs']
        exact ⟨.refl hfirst, .refl _ _ _, by rw [hval]; rfl⟩
    | some first =>
        obtain ⟨k, value⟩ := first
        have hk : (k : Int) ≤ slot := by
          have := hfirst.2.1
          omega
        have hnone : ∀ j < k, S.column (memory s) path j = none :=
          fun j hj => hfirst.2.2.2 j (by omega) hj
        refine (copyDown_ensures hS hp value k s').bind ?_ ?_
        · intro _ s'' hcopied
          rw [hs'] at hcopied
          exact Action.ensures_pure.mpr ⟨hcopied.fieldRepaired hS hp hfirst,
            hcopied.onlyFills hk hnone, by rw [hval]; rfl⟩
        · rintro _ s'' ⟨⟨i, hi, hcopied⟩, hrefuse⟩
          rw [hs'] at hcopied
          exact ⟨hcopied.resumable hS hp hi hfirst, hcopied.onlyFills hk hnone, hrefuse⟩
  · rintro _ s' ⟨hs', hrefuse⟩
    rw [hs']
    exact ⟨.refl _ _ _, .refl _ _ _, hrefuse⟩

/-! ### The repair pass -/

/-- The leading places of the columns of `paths` have been filled, and nothing else was changed. -/
structure Repaired (S : Schema) (paths : List Label) (n : Nat) (m m' : MemoryStore) : Prop where
  filled : ∀ p ∈ paths, ∀ j < n, S.column m' p j = leadingFilled (S.column m p) n j
  outside : ∀ key, (∀ p ∈ paths, ∀ j : Nat, j < n → key ≠ S.fieldKey p j) → m'.get? key = m.get? key

theorem FieldRepaired.column_of_ne (hS : S.KeysDistinct) {p : Label} (hp : path ∈ S.fieldPaths)
    (hp' : p ∈ S.fieldPaths) (hne : p ≠ path) {n : Nat} {m m' : MemoryStore}
    (h : FieldRepaired S path n m m') (j : Nat) : S.column m' p j = S.column m p j :=
  h.outside _ fun _ _ e => hne (hS.fieldKey_inj hp' hp e).1

theorem FieldRepaired.firstSome_column (hS : S.KeysDistinct) {p : Label} (hp : path ∈ S.fieldPaths)
    (hp' : p ∈ S.fieldPaths) {n : Nat} {m m' : MemoryStore} (h : FieldRepaired S path n m m') :
    firstSome (S.column m' p) n = firstSome (S.column m p) n := by
  by_cases hne : p = path
  · rw [hne, firstSome_congr h.filled, firstSome_leadingFilled]
  · exact firstSome_congr fun j _ => h.column_of_ne hS hp hp' hne j

theorem FieldRepaired.cons (hS : S.KeysDistinct) {paths : List Label} (hp : path ∈ S.fieldPaths)
    (hpaths : ∀ p ∈ paths, p ∈ S.fieldPaths) {n : Nat} {m m' m'' : MemoryStore}
    (h : FieldRepaired S path n m m') (h' : Repaired S paths n m' m'') :
    Repaired S (path :: paths) n m m'' := by
  constructor
  · intro p hmem j hj
    by_cases hne : p = path
    · subst hne
      by_cases hin : p ∈ paths
      · -- a path that comes twice is repaired twice
        rw [h'.filled p hin j hj, leadingFilled_congr h.filled hj, leadingFilled_leadingFilled]
      · rw [← h.filled j hj]
        exact h'.outside _ fun q hq i _ e =>
          hin ((hS.fieldKey_inj hp (hpaths q hq) e).1 ▸ hq)
    · have hin : p ∈ paths := (List.mem_cons.mp hmem).resolve_left hne
      rw [h'.filled p hin j hj]
      exact leadingFilled_congr (fun i _ => h.column_of_ne hS hp (hpaths p hin) hne i) hj
  · intro key hkey
    rw [h'.outside key fun p hp' => hkey p (List.mem_cons_of_mem _ hp'),
      h.outside key (hkey path List.mem_cons_self)]

theorem backfillFields_ensures (hS : S.KeysDistinct) {paths : List Label}
    (hpaths : ∀ p ∈ paths, p ∈ S.fieldPaths) (slot : Int) (s : σ) :
    (backfillFields S slot paths).Ensures s
      (fun complete s' => Repaired S paths (slot + 1).toNat (memory s) (memory s') ∧
        OnlyFills S paths slot (memory s) (memory s') ∧
        (complete = true ↔
          ∀ p ∈ paths, (firstSome (S.column (memory s) p) (slot + 1).toNat).isSome))
      fun _ s' => Resumable S paths (slot + 1).toNat (memory s) (memory s') ∧
        OnlyFills S paths slot (memory s) (memory s') ∧ mayRefuse σ := by
  induction paths generalizing s with
  | nil =>
      unfold backfillFields
      exact Action.ensures_pure.mpr
        ⟨⟨fun p hp => absurd hp List.not_mem_nil, fun _ _ => rfl⟩, .refl _ _ _, by simp⟩
  | cons path paths ih =>
      have hp := hpaths path List.mem_cons_self
      have hrest : ∀ p ∈ paths, p ∈ S.fieldPaths := fun p h => hpaths p (List.mem_cons_of_mem _ h)
      unfold backfillFields
      refine (backfillField_ensures hS hp slot s).bind ?_ ?_
      · rintro found s' ⟨hfield, hfills, rfl⟩
        refine (ih hrest s').bind ?_ ?_
        · rintro complete s'' ⟨hothers, hfills', hcomplete⟩
          refine Action.ensures_pure.mpr ⟨hfield.cons hS hp hrest hothers, hfills.trans hfills', ?_⟩
          rw [Bool.and_eq_true, hcomplete, List.forall_mem_cons]
          exact and_congr_right fun _ => forall₂_congr fun p hp' => by
            rw [hfield.firstSome_column hS hp (hrest p hp')]
        · rintro _ s'' ⟨hcut, hfills', hrefuse⟩
          have hdone := hfield.resumable.mono hS hpaths (List.forall_mem_singleton.mpr List.mem_cons_self)
          have hleft := hcut.mono hS hpaths fun p hp' => List.mem_cons_of_mem _ hp'
          exact ⟨hdone.trans hleft, hfills.trans hfills', hrefuse⟩
      · rintro _ s' ⟨hcut, hfills, hrefuse⟩
        exact ⟨hcut.mono hS hpaths (List.forall_mem_singleton.mpr List.mem_cons_self),
          hfills.trans (.refl paths _ _), hrefuse⟩

/-- The repair pass fills the leading places of every column up to the slot and tells whether all of them
have a value.  It changes no text, and where it fails it has only put texts where there were none and can be
resumed. -/
theorem backfillLeading_ensures (hS : S.KeysDistinct) (slot : Int) (s : σ) :
    (backfillLeading S slot).Ensures s
      (fun complete s' => Repaired S S.fieldPaths (slot + 1).toNat (memory s) (memory s') ∧
        OnlyFills S S.fieldPaths slot (memory s) (memory s') ∧
        (complete = true ↔
          ∀ p ∈ S.fieldPaths, (firstSome (S.column (memory s) p) (slot + 1).toNat).isSome))
      fun _ s' => Resumable S S.fieldPaths (slot + 1).toNat (memory s) (memory s') ∧
        OnlyFills S S.fieldPaths slot (memory s) (memory s') ∧ mayRefuse σ :=
  backfillFields_ensures hS (fun _ h => h) slot s

/-! ### The tokens of a slot -/

/-- What is kept for a token of a slot: the token, or else the last value before the slot. -/
def Schema.keptFor (S : Schema) (m : MemoryStore) (slot : Int) (path : Label) (value : Option String) :
    Option String :=
  value.or (lastSome (S.column m path) slot.toNat)

theorem storeToken_ensures (hS : S.KeysDistinct) (hp : path ∈ S.fieldPaths) (slot : Int)
    (value : Option String) (s : σ) : (storeToken S slot path value).Ensures s
      (fun kept s' => kept = S.keptFor (memory s) slot path value ∧
        memory s' = kept.elim (memory s) ((memory s).put (S.fieldKey path slot)))
      fun _ s' => memory s' = memory s ∧ mayRefuse σ := by
  unfold storeToken
  cases value with
  | some text =>
      refine (set_ensures (hS.fieldKey_isText hp slot) text s).bind ?_ fun _ _ h => h
      exact fun _ s' hs' => Action.ensures_pure.mpr ⟨rfl, hs'⟩
  | none =>
      refine (seekBack_ensures hS hp slot.toNat s).bind ?_ fun _ _ h => h
      rintro found s' ⟨hs', hfound⟩
      cases found with
      | none => exact Action.ensures_pure.mpr ⟨hfound, hs'⟩
      | some text =>
          refine (set_ensures (hS.fieldKey_isText hp slot) text s').bind ?_ ?_
          · exact fun _ s'' hs'' => Action.ensures_pure.mpr ⟨hfound, by rw [hs'', hs']; rfl⟩
          · rintro _ s'' ⟨hs'', hrefuse⟩
            exact ⟨hs''.trans hs', hrefuse⟩

/-- A store in which the keys of a slot alone have changed keeps the same for a token of the slot. -/
theorem keptFor_congr (hS : S.KeysDistinct) (hp : path ∈ S.fieldPaths) {slot : Int} {m m' : MemoryStore}
    (h : ∀ key, (∀ p ∈ S.fieldPaths, key ≠ S.fieldKey p slot) → m'.get? key = m.get? key)
    (value : Option String) : S.keptFor m' slot path value = S.keptFor m slot path value := by
  have hcol : lastSome (S.column m' path) slot.toNat = lastSome (S.column m path) slot.toNat := by
    refine lastSome_congr fun j hj => h _ fun p hp' e => ?_
    have := (hS.fieldKey_inj hp hp' e).2
    omega
  unfold Schema.keptFor
  rw [hcol]

/-- The texts under the keys of a slot are what is kept for its tokens, and nothing else was changed. -/
structure TokensKept (S : Schema) (slot : Int) (tokens : Tokens) (m m' : MemoryStore) : Prop where
  kept : ∀ e ∈ tokens, m'.get? (S.fieldKey e.1 slot) =
    (S.keptFor m slot e.1 e.2).or (m.get? (S.fieldKey e.1 slot))
  outside : ∀ key, (∀ e ∈ tokens, key ≠ S.fieldKey e.1 slot) → m'.get? key = m.get? key

theorem TokensKept.cons (hS : S.KeysDistinct) {slot : Int} {path : Label} {value : Option String}
    {rest : Tokens} (hp : path ∈ S.fieldPaths) (hrest : ∀ e ∈ rest, e.1 ∈ S.fieldPaths)
    (hnotin : ∀ e ∈ rest, e.1 ≠ path) {m m' m'' : MemoryStore}
    (h : m' = (S.keptFor m slot path value).elim m (m.put (S.fieldKey path slot)))
    (h' : TokensKept S slot rest m' m'') : TokensKept S slot ((path, value) :: rest) m m'' := by
  have hput := MemoryStore.get?_elim_put (hS.fieldKey_isText hp slot) m (S.keptFor m slot path value)
  rw [← h] at hput
  have hother : ∀ key, key ≠ S.fieldKey path slot → m'.get? key = m.get? key :=
    fun key hne => (hput key).trans (if_neg hne)
  constructor
  · intro e he
    rcases List.mem_cons.mp he with rfl | he
    · rw [h'.outside _ fun e he e' => hnotin e he (hS.fieldKey_inj hp (hrest e he) e').1.symm,
        hput, if_pos rfl]
    · rw [h'.kept e he, keptFor_congr hS (hrest e he) fun key hkey => hother key (hkey path hp),
        hother _ fun e' => hnotin e he (hS.fieldKey_inj (hrest e he) hp e').1]
  · intro key hkey
    rw [h'.outside key fun e he => hkey e (List.mem_cons_of_mem _ he),
      hother key (hkey _ List.mem_cons_self)]

/-- The tokens of a slot are kept, and where one is missing the last value before the slot; it gives what
it kept.  However it ends, it changes no other key. -/
theorem storeTokens_ensures (hS : S.KeysDistinct) (slot : Int) {tokens : Tokens}
    (hpaths : ∀ e ∈ tokens, e.1 ∈ S.fieldPaths) (hnodup : (tokens.map (·.1)).Nodup) (s : σ) :
    (storeTokens S slot tokens).Ensures s
      (fun kept s' => kept = tokens.map (fun e => (e.1, S.keptFor (memory s) slot e.1 e.2)) ∧
        TokensKept S slot tokens (memory s) (memory s'))
      fun _ s' => (∀ key, (∀ e ∈ tokens, key ≠ S.fieldKey e.1 slot) →
        (memory s').get? key = (memory s).get? key) ∧ mayRefuse σ := by
  induction tokens generalizing s with
  | nil =>
      unfold storeTokens
      exact Action.ensures_pure.mpr ⟨rfl, fun e he => absurd he List.not_mem_nil, fun _ _ => rfl⟩
  | cons entry rest ih =>
      obtain ⟨path, value⟩ := entry
      have hp : path ∈ S.fieldPaths := hpaths _ List.mem_cons_self
      have hrest : ∀ e ∈ rest, e.1 ∈ S.fieldPaths := fun e h => hpaths e (List.mem_cons_of_mem _ h)
      obtain ⟨hfresh, hnodup⟩ := List.nodup_cons.mp hnodup
      have hnotin : ∀ e ∈ rest, e.1 ≠ path := fun e he h => hfresh (List.mem_map.mpr ⟨e, he, h⟩)
      unfold storeTokens
      refine (storeToken_ensures hS hp slot value s).bind ?_ ?_
      · rintro kept s' ⟨rfl, hs'⟩
        have hother : ∀ key, key ≠ S.fieldKey path slot →
            (memory s').get? key = (memory s).get? key := by
          intro key hne
          rw [hs', MemoryStore.get?_elim_put (hS.fieldKey_isText hp slot), if_neg hne]
        refine (ih hrest hnodup s').bind ?_ ?_
        · rintro others s'' ⟨rfl, htokens⟩
          refine Action.ensures_pure.mpr ⟨?_, htokens.cons hS hp hrest hnotin hs'⟩
          rw [List.map_cons]
          congr 1
          exact List.map_congr_left fun e he => by
            rw [keptFor_congr hS (hrest e he) fun key hkey => hother key (hkey path hp)]
        · rintro _ s'' ⟨hout, hrefuse⟩
          refine ⟨fun key hkey => ?_, hrefuse⟩
          rw [hout key fun e he => hkey e (List.mem_cons_of_mem _ he),
            hother key (hkey _ List.mem_cons_self)]
      · rintro _ s' ⟨hs', hrefuse⟩
        exact ⟨fun key _ => by rw [hs'], hrefuse⟩

end GeoWorkload
