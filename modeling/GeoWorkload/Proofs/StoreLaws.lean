import GeoWorkload.Counters.Faulty
import GeoWorkload.Proofs.Outcomes
import GeoWorkload.Proofs.StoreKeys

/-!
# Laws of counter stores

A store that is backed by a memory (`MemoryBacked`): every call does to the memory what a call of a store in
memory does, or it is refused and leaves the memory as it was.  The store in memory is one that refuses
nothing, and the store that fails on demand is one that may refuse any call.
-/

namespace GeoWorkload

namespace MemoryStore

/-- The text under a key is read as an integer. -/
def Counts (m : MemoryStore) (key : Label) (z : Int) : Prop :=
  ∃ text, m.get? key = some text ∧ Numeral.readInteger text = .ok z

theorem Counts.unique {m : MemoryStore} {key : Label} {a b : Int} (ha : m.Counts key a)
    (hb : m.Counts key b) : a = b := by
  obtain ⟨s, hs, ha⟩ := ha
  obtain ⟨t, ht, hb⟩ := hb
  rw [hs] at ht
  cases ht
  rw [ha] at hb
  exact Except.ok.inj hb

theorem counts_of_decimal {m : MemoryStore} {key : Label} {z : Int} (hz : Numeral.IsWritable z)
    (h : m.get? key = some (Numeral.decimal z)) : m.Counts key z :=
  ⟨_, h, Numeral.readInteger_decimal hz⟩

theorem get?_put_of_isText {key : Label} (h : key.IsText) (m : MemoryStore) (value : String)
    (other : Label) : (m.put key value).get? other = if other = key then some value else m.get? other := by
  rw [get?_put]
  by_cases e : other = key
  · simp [e, Label.same_self]
  · have : key.same other = false := Bool.eq_false_iff.mpr fun h' => e (h.same_iff.mp h')
    simp [e, this]

theorem get?_put_of_ne {key other : Label} (h : key.IsText) (m : MemoryStore) (value : String)
    (hne : other ≠ key) : (m.put key value).get? other = m.get? other := by
  rw [get?_put_of_isText h, if_neg hne]

/-- A text that is there to be put is under its key afterwards; other keys stay as they are. -/
theorem get?_elim_put {key : Label} (h : key.IsText) (m : MemoryStore) (value : Option String)
    (other : Label) : (value.elim m (m.put key)).get? other =
      if other = key then value.or (m.get? key) else m.get? other := by
  cases value with
  | none =>
      split
      · rename_i e
        rw [e]
        rfl
      · rfl
  | some text => exact get?_put_of_isText h m text other

/-- An increment finds a number and puts the decimal of the sum in its place, or it fails and changes
nothing, which it does only where there is no number or the sum is too long to be written. -/
theorem increment_cases (m : MemoryStore) (key : Label) (step : Int) :
    (∃ z, m.Counts key z ∧ Numeral.IsWritable (z + step) ∧
      m.increment key step = (.ok (z + step), m.put key (Numeral.decimal (z + step)))) ∨
    ((∀ z, m.Counts key z → ¬ Numeral.IsWritable (z + step)) ∧
      ∃ e, m.increment key step = (.error e, m)) := by
  unfold increment
  rcases hget : m.get? key with _ | text
  · exact Or.inr ⟨fun z ⟨t, ht, _⟩ => by simp [hget] at ht, _, rfl⟩
  · have hcounts : ∀ z, m.Counts key z → Numeral.readInteger text = .ok z := by
      rintro z ⟨t, ht, hz⟩
      rw [hget] at ht
      cases ht
      exact hz
    dsimp only
    rcases hread : Numeral.readInteger text with f | z
    · refine Or.inr ⟨fun z hz => ?_, _, rfl⟩
      have := hcounts z hz
      rw [hread] at this
      cases this
    · by_cases hw : Numeral.IsWritable (z + step)
      · refine Or.inl ⟨z, ⟨text, hget, hread⟩, hw, ?_⟩
        simp [Numeral.writeInteger_eq, hw]
      · refine Or.inr ⟨fun z' hz' => ?_, .number .unwritable, ?_⟩
        · have := hcounts z' hz'
          rw [hread] at this
          cases this
          exact hw
        · simp [Numeral.writeInteger_eq, hw]

end MemoryStore

/-- A counter store whose calls under keys that are texts act on a memory as those of a store in memory, or
are refused, if that may happen, and leave the memory as it was. -/
class MemoryBacked (σ : Type) [CounterStore σ] where
  /-- What the store holds. -/
  memory : σ → MemoryStore
  /-- Whether calls may be refused. -/
  mayRefuse : Prop
  get_text (key : String) (s : σ) : (CounterStore.get (.text key)).Ensures s
    (fun found s' => found = (memory s).get? (.text key) ∧ memory s' = memory s)
    fun _ s' => memory s' = memory s ∧ mayRefuse
  set_text (key value : String) (s : σ) : (CounterStore.set (.text key) value).Ensures s
    (fun _ s' => memory s' = (memory s).put (.text key) value)
    fun _ s' => memory s' = memory s ∧ mayRefuse
  increment_text (key : String) (step : Int) (s : σ) :
    (CounterStore.increment (.text key) step).Ensures s
      (fun z s' => (memory s).increment (.text key) step = (.ok z, memory s'))
      fun _ s' => memory s' = memory s ∧
        (mayRefuse ∨ ∃ e, (memory s).increment (.text key) step = (.error e, memory s))

namespace MemoryStore

theorem under_text {α : Type} (key : String) (f : MemoryStore → Except Failure α × MemoryStore) :
    under (.text key) f = Action.step f := rfl

instance : MemoryBacked MemoryStore where
  memory := id
  mayRefuse := False
  get_text key s := by
    show (under (.text key) _).Ensures _ _ _
    rw [under_text, Action.ensures_step]
    exact ⟨rfl, rfl⟩
  set_text key value s := by
    show (under (.text key) _).Ensures _ _ _
    rw [under_text, Action.ensures_step]
    rfl
  increment_text key step s := by
    show (under (.text key) _).Ensures _ _ _
    rw [under_text, Action.ensures_step]
    rcases increment_cases s (.text key) step with ⟨z, _, _, h⟩ | ⟨_, e, h⟩
    · rw [h]
      exact h
    · rw [h]
      exact ⟨rfl, Or.inr ⟨e, h⟩⟩

end MemoryStore

namespace FaultyStore

theorem guarded_text {α : Type} (call : StoreCall) (key : String)
    (f : MemoryStore → Except Failure α × MemoryStore) (s : FaultyStore) {ok : α → FaultyStore → Prop}
    {failed : Failure → FaultyStore → Prop}
    (hok : ∀ a m faults, f s.memory = (.ok a, m) → ok a { s with memory := m, faults })
    (herror : ∀ e m faults, f s.memory = (.error e, m) → failed e { s with memory := m, faults })
    (hrefused : ∀ message faults, failed (.callRefused message) { s with faults }) :
    (guarded call (.text key) f).Ensures s ok failed := by
  show (Action.step _).Ensures _ _ _
  rw [Action.ensures_step]
  rcases Fault.strike call (.text key) s.faults with ⟨_ | message, faults⟩
  · rcases hf : f s.memory with ⟨e | a, m⟩
    · simpa [hf] using herror e m faults hf
    · simpa [hf] using hok a m faults hf
  · exact hrefused message faults

instance : MemoryBacked FaultyStore where
  memory := FaultyStore.memory
  mayRefuse := True
  get_text key s := by
    refine guarded_text .get key (fun m => (.ok (m.get? (.text key)), m)) s ?_ ?_ ?_
    · intro a m faults h
      cases h
      exact ⟨rfl, rfl⟩
    · intro e m faults h
      cases h
    · intro message faults
      exact ⟨rfl, trivial⟩
  set_text key value s := by
    refine guarded_text .set key (fun m => (.ok (), m.put (.text key) value)) s ?_ ?_ ?_
    · intro a m faults h
      cases h
      rfl
    · intro e m faults h
      cases h
    · intro message faults
      exact ⟨rfl, trivial⟩
  increment_text key step s := by
    refine guarded_text .increment key (fun m => m.increment (.text key) step) s ?_ ?_ ?_
    · intro a m faults h
      exact h
    · intro e m faults h
      rcases MemoryStore.increment_cases s.memory (.text key) step with ⟨z, _, _, h'⟩ | ⟨_, e', h'⟩
      · rw [h] at h'
        cases h'
      · rw [h] at h'
        cases h'
        exact ⟨rfl, Or.inl trivial⟩
    · intro message faults
      exact ⟨rfl, Or.inl trivial⟩

end FaultyStore

/-! ### Calls under the keys of a schema -/

namespace MemoryBacked

variable {σ : Type} [CounterStore σ] [MemoryBacked σ] {key : Label}

theorem get_ensures (h : key.IsText) (s : σ) : (CounterStore.get key).Ensures s
    (fun found s' => found = (memory s).get? key ∧ memory s' = memory s)
    fun _ s' => memory s' = memory s ∧ mayRefuse σ := by
  obtain ⟨t, rfl⟩ := h
  exact get_text t s

theorem set_ensures (h : key.IsText) (value : String) (s : σ) : (CounterStore.set key value).Ensures s
    (fun _ s' => memory s' = (memory s).put key value)
    fun _ s' => memory s' = memory s ∧ mayRefuse σ := by
  obtain ⟨t, rfl⟩ := h
  exact set_text t value s

theorem increment_ensures (h : key.IsText) (step : Int) (s : σ) :
    (CounterStore.increment key step).Ensures s
      (fun z s' => ∃ z₀, (memory s).Counts key z₀ ∧ z = z₀ + step ∧ Numeral.IsWritable z ∧
        memory s' = (memory s).put key (Numeral.decimal z))
      fun _ s' => memory s' = memory s ∧
        (mayRefuse σ ∨ ∀ z, (memory s).Counts key z → ¬ Numeral.IsWritable (z + step)) := by
  obtain ⟨t, rfl⟩ := h
  refine (increment_text t step s).mono ?_ ?_
  · intro z s' h
    rcases MemoryStore.increment_cases (memory s) (.text t) step with ⟨z₀, hz₀, hw, h'⟩ | ⟨_, e, h'⟩
    · obtain ⟨hz, hs'⟩ := Prod.mk.inj (h'.symm.trans h)
      cases hz
      exact ⟨z₀, hz₀, rfl, hw, hs'.symm⟩
    · exact absurd (h'.symm.trans h) (by simp)
  · rintro _ s' ⟨hs', hrefuse | ⟨e, h⟩⟩
    · exact ⟨hs', Or.inl hrefuse⟩
    · refine ⟨hs', Or.inr ?_⟩
      rcases MemoryStore.increment_cases (memory s) (.text t) step with ⟨z₀, _, _, h'⟩ | ⟨hnone, _⟩
      · exact absurd (h'.symm.trans h) (by simp)
      · exact hnone

/-- A counter is read as what the memory counts, and the memory stays as it was. -/
theorem readCounter_ensures (h : key.IsText) (s : σ) : (CounterStore.readCounter key).Ensures s
    (fun z s' => (memory s).Counts key z ∧ memory s' = memory s) fun _ s' => memory s' = memory s := by
  unfold CounterStore.readCounter
  refine (get_ensures h s).bind ?_ fun _ _ h => h.1
  rintro found s' ⟨hfound, hs'⟩
  split
  · exact Action.ensures_fail.mpr hs'
  · rename_i text
    split
    · rename_i hread
      exact Action.ensures_pure.mpr ⟨⟨text, hfound.symm, hread⟩, hs'⟩
    · exact Action.ensures_fail.mpr hs'

end MemoryBacked

end GeoWorkload
