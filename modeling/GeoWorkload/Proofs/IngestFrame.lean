import GeoWorkload.Proofs.Fleet

/-!
# Ingests that are cut short

A call of the store may be refused at any step of an ingest.  However the ingest ends, it has changed
nothing or it has taken one slot, and then it has kept every text of the other slots
(`Generator.ingestDocument_frame`).  The slot that it took is not given to a later ingest: the number of
stored documents stays above it (`Fleet.run_slots_above`).
-/

namespace GeoWorkload

open MemoryBacked

variable {ι σ : Type} [CounterStore σ] [MemoryBacked σ]

/-- Numbers of inserts leave the number of stored documents as it is. -/
theorem Schema.Advanced.counts_stored {S : Schema} (hS : S.KeysDistinct) {k : Nat} {m m' : MemoryStore}
    (h : S.Advanced k m m') {c : Int} (hc : m.Counts S.storedKey c) : m'.Counts S.storedKey c := by
  obtain ⟨text, htext, hread⟩ := hc
  have hne : S.storedKey ≠ S.insertKey := hS.ne .stored .inserts trivial trivial nofun
  exact ⟨text, (h.outside _ hne).trans htext, hread⟩

namespace Fleet

variable {S : Schema} {fleet fleet' : Fleet ι σ} {event : Event ι σ}

/-- The number of stored documents does not go down, and a slot that an ingest gives is that number before
the ingest. -/
theorem Happened.counts_stored (hS : S.KeysDistinct) (hfleet : ∀ i, (fleet.generators i).schema = S)
    (h : Happened fleet event fleet') {c : Int} (hc : (memory fleet.counters).Counts S.storedKey c) :
    (∃ c', c ≤ c' ∧ (memory fleet'.counters).Counts S.storedKey c') ∧
      ∀ slot, event.reply = .ok (.slot slot) → slot = c := by
  obtain ⟨worker, call, reply, before, after⟩ := event
  have heffect := h.effect
  dsimp only at heffect ⊢
  rw [← hfleet worker] at hc hS ⊢
  cases heffect with
  | ingested hcontents h =>
      refine ⟨⟨_, ?_, h.claimed.after⟩, fun slot hslot => ?_⟩
      · rw [h.claimed.before.unique hc]
        omega
      · cases hslot
        exact h.claimed.before.unique hc
  | ingestFailed h hflag =>
      refine ⟨?_, nofun⟩
      rcases h with ⟨hm, _⟩ | ⟨_, slot, hclaimed⟩
      · exact ⟨c, Int.le_refl c, by rwa [hm]⟩
      · refine ⟨_, ?_, hclaimed.after⟩
        rw [hclaimed.before.unique hc]
        omega
  | returned hcall hreply hk h hid hflag =>
      refine ⟨⟨c, Int.le_refl c, h.counts_stored hS hc⟩, fun slot hslot => ?_⟩
      cases hslot
      exact absurd rfl (hreply slot)
  | failed hcall hk h hflag => exact ⟨⟨c, Int.le_refl c, h.counts_stored hS hc⟩, nofun⟩

/-- Once the number of stored documents is above a slot, no operation gives the slot or counts it. -/
theorem run_slots_above [Powers] [DecidableEq ι] (hS : S.KeysDistinct)
    (hfleet : ∀ i, (fleet.generators i).schema = S) {slot c : Int} (hlt : slot < c)
    (hc : (memory fleet.counters).Counts S.storedKey c) (calls : List (ι × Call)) :
    (run calls).Returns fleet fun events _ => ∀ event ∈ events, ∀ slot',
      event.reply = .ok (.slot slot') ∨ (memory event.before).Counts S.storedKey slot' →
        slot < slot' := by
  have hrun := run_returns hS (fun (history : List (Event ι σ)) (fleet : Fleet ι σ) =>
    (∃ c, slot < c ∧ (memory fleet.counters).Counts S.storedKey c) ∧
    ∀ event ∈ history, ∀ slot',
      event.reply = .ok (.slot slot') ∨ (memory event.before).Counts S.storedKey slot' → slot < slot')
  refine (hrun ?_ calls hfleet ⟨⟨c, hlt, hc⟩, fun _ h => absurd h List.not_mem_nil⟩).mono
    (fun events fleet' h => h.2.2) fun _ _ h => h
  rintro history fleet event fleet' hfleet ⟨⟨c, hlt, hc⟩, hhistory⟩ h
  obtain ⟨⟨c', hle, hc'⟩, hslot⟩ := h.counts_stored hS hfleet hc
  refine ⟨⟨c', by omega, hc'⟩, fun e he slot' hgiven => ?_⟩
  rcases List.mem_append.mp he with he | he
  · exact hhistory e he slot' hgiven
  · rw [List.mem_singleton.mp he] at hgiven
    rcases hgiven with hreply | hcounts
    · rw [hslot slot' hreply]
      exact hlt
    · rw [h.before] at hcounts
      rw [hcounts.unique hc]
      exact hlt

end Fleet

namespace Generator

/-- However an ingest ends, at whatever call of the store it is refused, either the store is what it was, or
one slot has been taken, the one that is given if one is given: texts but the number of stored documents and
those of the slot are kept, and new ones stand in the slot or in places of fields that had none in slots
before it.  If it fails, the flag of the generator is what it was.  No later operation of any generator gives
the slot or finds it free. -/
theorem ingestDocument_frame [Powers] {S : Schema} (hS : S.KeysDistinct) {site : Site FaultyStore}
    (hschema : site.generator.schema = S) (key : String) (document : Json.Value) :
    (ingestDocument key document).attempt.Returns site fun reply site' =>
      (site'.counters.memory = site.counters.memory ∧ (∀ slot, reply ≠ .ok slot) ∨
        ∃ slot, S.Claimed slot site.counters.memory site'.counters.memory ∧
          (∀ slot', reply = .ok slot' → slot' = slot) ∧
          ∀ {ι : Type} [DecidableEq ι] (fleet : Fleet ι FaultyStore) (calls : List (ι × Fleet.Call)),
            (∀ i, (fleet.generators i).schema = S) →
            fleet.counters.memory = site'.counters.memory →
            (Fleet.run calls).Returns fleet fun events _ => ∀ event ∈ events, ∀ slot',
              event.reply = .ok (.slot slot') ∨ event.before.memory.Counts S.storedKey slot' →
                slot < slot') ∧
      ∀ e, reply = .error e → site'.generator.allInitialized = site.generator.allInitialized := by
  subst hschema
  have hlater : ∀ {slot : Int} {m' : MemoryStore},
      site.generator.schema.Claimed slot site.counters.memory m' →
      ∀ {ι : Type} [DecidableEq ι] (fleet : Fleet ι FaultyStore) (calls : List (ι × Fleet.Call)),
        (∀ i, (fleet.generators i).schema = site.generator.schema) → fleet.counters.memory = m' →
        (Fleet.run calls).Returns fleet fun events _ => ∀ event ∈ events, ∀ slot',
          event.reply = .ok (.slot slot') ∨
            event.before.memory.Counts site.generator.schema.storedKey slot' → slot < slot' := by
    intro slot m' hclaimed ι _ fleet calls hfleet hm'
    refine Fleet.run_slots_above hS hfleet (Int.lt_succ slot) ?_ calls
    show fleet.counters.memory.Counts _ _
    rw [hm']
    exact hclaimed.after
  refine Action.Ensures.attempt
    ((ingestDocument_ensures hS key document site.holds_self).mono ?_ ?_)
  · rintro slot site' ⟨body, tokens, _, flag', hcontents, ⟨_, rfl⟩, hingested⟩
    refine ⟨Or.inr ⟨slot, hingested.claimed, fun slot' h => ?_, hlater hingested.claimed⟩, ?_⟩
    · cases h
      rfl
    · intro e he
      cases he
  · rintro e site' ⟨_, ⟨halike, rfl⟩, hfailed⟩
    refine ⟨?_, fun _ _ => halike.flag⟩
    rcases hfailed with ⟨hm, _⟩ | ⟨_, slot, hclaimed⟩
    · exact Or.inl ⟨hm, nofun⟩
    · exact Or.inr ⟨slot, hclaimed, nofun, hlater hclaimed⟩

/-- A fresh generator at a store without documents that will refuse the body of the first one. -/
def refusingSite : Site FaultyStore where
  generator := .make {} .incidents (.ofSeed 0)
  counters := {
    memory := MemoryStore.empty.put Schema.incidents.storedKey "0"
    faults := [⟨.set, none, 1, "refused"⟩] }

theorem ingestDocument_frame_refusingSite :
    Schema.incidents.KeysDistinct ∧ refusingSite.generator.schema = .incidents ∧
      (ingestDocument "first" (.object [])).attempt.Returns refusingSite fun reply site' =>
        (site'.counters.memory = refusingSite.counters.memory ∨ ∃ slot,
          Schema.incidents.Claimed slot refusingSite.counters.memory site'.counters.memory) ∧
        ∀ e, reply = .error e → site'.generator.allInitialized = false := by
  have hframe := ingestDocument_frame Schema.keysDistinct_incidents
    (show refusingSite.generator.schema = .incidents from rfl) "first" (.object [])
  refine ⟨Schema.keysDistinct_incidents, rfl, hframe.mono ?_ fun _ _ h => h⟩
  rintro reply site' ⟨hmemory | ⟨slot, hclaimed, _⟩, hflag⟩
  · exact ⟨Or.inl hmemory.1, hflag⟩
  · exact ⟨Or.inr ⟨slot, hclaimed⟩, hflag⟩

end Generator

end GeoWorkload
