import GeoWorkload.Proofs.StoreLaws

/-!
# Seeded stores

Seeding puts the counters that are missing and changes nothing else (`CounterStore.seedCounters_ensures`).
A store that was empty before it was seeded holds the three counters and no other text
(`MemoryStore.Seeded`).
-/

namespace GeoWorkload

namespace MemoryStore

theorem get?_add {key : Label} (h : key.IsText) (m : MemoryStore) (value : String) (other : Label) :
    (m.add key value).2.get? other =
      if other = key then some ((m.get? key).getD value) else m.get? other := by
  unfold add
  rcases hget : m.get? key with _ | text
  · exact get?_put_of_isText h m value other
  · by_cases e : other = key
    · rw [if_pos e, e]
      exact hget
    · rw [if_neg e]

end MemoryStore

namespace CounterStore

theorem add_ensures {key : Label} (h : key.IsText) (value : String) (m : MemoryStore) :
    (add key value).Ensures m (fun _ m' => m' = (m.add key value).2) fun _ _ => False := by
  obtain ⟨t, rfl⟩ := h
  show (MemoryStore.under (.text t) _).Ensures _ _ _
  rw [MemoryStore.under_text, Action.ensures_step]

theorem addInteger_ensures {key : Label} (h : key.IsText) (z : Int) (m : MemoryStore) :
    (addInteger key z).Ensures m
      (fun _ m' => Numeral.IsWritable z ∧ m' = (m.add key (Numeral.decimal z)).2)
      fun _ _ => ¬ Numeral.IsWritable z := by
  have hwrite : (Action.ofNumber (Numeral.writeInteger z) : Action MemoryStore String).Ensures m
      (fun text m' => Numeral.IsWritable z ∧ text = Numeral.decimal z ∧ m' = m)
      fun _ _ => ¬ Numeral.IsWritable z := by
    rw [Numeral.writeInteger_eq]
    by_cases hz : Numeral.IsWritable z
    · rw [if_pos hz]
      refine Action.ensures_ofExcept.mpr ⟨fun text htext => ?_, fun e he => by cases he⟩
      cases htext
      exact ⟨hz, rfl, rfl⟩
    · rw [if_neg hz]
      exact Action.ensures_ofExcept.mpr ⟨fun text htext => (by cases htext), fun _ _ => hz⟩
  unfold addInteger
  refine hwrite.bind ?_ fun _ _ h => h
  rintro _ _ ⟨hz, rfl, rfl⟩
  refine (add_ensures h (Numeral.decimal z) _).bind ?_ fun _ _ h => h.elim
  exact fun _ _ hm => Action.ensures_pure.mpr ⟨hz, hm⟩

/-- Seeding adds the three counters in turn, as far as they can be written. -/
theorem seedCounters_ensures {S : Schema} (hS : S.KeysDistinct) (total start : Int) (m : MemoryStore) :
    (seedCounters S total start).Ensures m
      (fun _ m' => m' = (((m.add S.totalKey (Numeral.decimal total)).2.add S.insertKey
        (Numeral.decimal (total + 1 + start))).2.add S.storedKey (Numeral.decimal 0)).2)
      fun _ _ => ¬ Numeral.IsWritable total ∨ ¬ Numeral.IsWritable (total + 1 + start) := by
  unfold seedCounters
  refine (addInteger_ensures hS.totalKey_isText total m).bind ?_ fun _ _ h => Or.inl h
  rintro _ _ ⟨_, rfl⟩
  refine (addInteger_ensures hS.insertKey_isText _ _).bind ?_ fun _ _ h => Or.inr h
  rintro _ _ ⟨_, rfl⟩
  refine (addInteger_ensures hS.storedKey_isText 0 _).mono (fun _ _ h => h.2) fun _ _ h => ?_
  exact absurd (Numeral.isWritable_of_natAbs_lt (by decide)) h

end CounterStore

/-- The store was empty before it was seeded for a schema, and nothing has happened to it since. -/
def MemoryStore.Seeded (S : Schema) (m : MemoryStore) : Prop :=
  ∃ total start, (CounterStore.seedCounters S total start).outcome MemoryStore.empty = .ok () ∧
    m = (CounterStore.seedCounters S total start).after MemoryStore.empty

namespace MemoryStore.Seeded

variable {S : Schema} {m : MemoryStore}

theorem of_isWritable (hS : S.KeysDistinct) {total start : Int} (ht : Numeral.IsWritable total)
    (hs : Numeral.IsWritable (total + 1 + start)) :
    Seeded S ((CounterStore.seedCounters S total start).after MemoryStore.empty) := by
  have hreturns : (CounterStore.seedCounters S total start).Returns MemoryStore.empty fun _ _ => True :=
    (CounterStore.seedCounters_ensures hS total start .empty).mono (fun _ _ _ => trivial)
      fun _ _ h => h.elim (absurd ht) (absurd hs)
  obtain ⟨_, houtcome, _⟩ := hreturns.exists_outcome
  exact ⟨total, start, houtcome, rfl⟩

theorem exists_eq (h : Seeded S m) (hS : S.KeysDistinct) : ∃ total start : Int,
    m = (((empty.add S.totalKey (Numeral.decimal total)).2.add S.insertKey
      (Numeral.decimal (total + 1 + start))).2.add S.storedKey (Numeral.decimal 0)).2 := by
  obtain ⟨total, start, houtcome, hm⟩ := h
  have hseeded := CounterStore.seedCounters_ensures hS total start empty
  exact ⟨total, start, hm.trans (hseeded.of_outcome houtcome)⟩

/-- A seeded store counts no documents. -/
theorem get?_storedKey (h : Seeded S m) (hS : S.KeysDistinct) :
    m.get? S.storedKey = some (Numeral.decimal 0) := by
  obtain ⟨total, start, rfl⟩ := h.exists_eq hS
  have hne : S.storedKey ≠ S.totalKey := hS.ne .stored .total trivial trivial nofun
  have hne' : S.storedKey ≠ S.insertKey := hS.ne .stored .inserts trivial trivial nofun
  rw [get?_add hS.storedKey_isText, if_pos rfl, get?_add hS.insertKey_isText, if_neg hne',
    get?_add hS.totalKey_isText, if_neg hne, get?_empty]
  rfl

/-- A seeded store has no text under any other key than those of the counters. -/
theorem get?_eq_none (h : Seeded S m) (hS : S.KeysDistinct) {key : Label} (ht : key ≠ S.totalKey)
    (hi : key ≠ S.insertKey) (hs : key ≠ S.storedKey) : m.get? key = none := by
  obtain ⟨total, start, rfl⟩ := h.exists_eq hS
  rw [get?_add hS.storedKey_isText, if_neg hs, get?_add hS.insertKey_isText, if_neg hi,
    get?_add hS.totalKey_isText, if_neg ht, get?_empty]

end MemoryStore.Seeded

/-- Seeding an empty store counts the total number of documents, and the inserts from behind it. -/
theorem CounterStore.counts_seedCounters {S : Schema} (hS : S.KeysDistinct) {total start : Int}
    (ht : Numeral.IsWritable total) (hs : Numeral.IsWritable (total + 1 + start)) {m : MemoryStore}
    (hm : m = (seedCounters S total start).after MemoryStore.empty) :
    m.Counts S.totalKey total ∧ m.Counts S.insertKey (total + 1 + start) := by
  have hreturns : (seedCounters S total start).Returns MemoryStore.empty fun _ m' => m' = _ :=
    (seedCounters_ensures hS total start .empty).mono (fun _ _ h => h)
      fun _ _ h => h.elim (absurd ht) (absurd hs)
  obtain ⟨_, _, hafter⟩ := hreturns.exists_outcome
  have hit : S.insertKey ≠ S.totalKey := hS.ne .inserts .total trivial trivial nofun
  have his : S.insertKey ≠ S.storedKey := hS.ne .inserts .stored trivial trivial nofun
  have hts : S.totalKey ≠ S.storedKey := hS.ne .total .stored trivial trivial nofun
  rw [hm, hafter]
  constructor
  · refine MemoryStore.counts_of_decimal ht ?_
    rw [MemoryStore.get?_add hS.storedKey_isText, if_neg hts, MemoryStore.get?_add hS.insertKey_isText,
      if_neg hit.symm, MemoryStore.get?_add hS.totalKey_isText, if_pos rfl, MemoryStore.get?_empty]
    rfl
  · refine MemoryStore.counts_of_decimal hs ?_
    rw [MemoryStore.get?_add hS.storedKey_isText, if_neg his, MemoryStore.get?_add hS.insertKey_isText,
      if_pos rfl, MemoryStore.get?_add hS.totalKey_isText, if_neg hit, MemoryStore.get?_empty]
    rfl

end GeoWorkload
