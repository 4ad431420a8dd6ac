import GeoWorkload.Proofs.Fleet
import Mathlib.Algebra.BigOperators.Group.List.Basic
import Mathlib.Algebra.Ring.Nat
import Mathlib.Data.List.Forall2

/-!
# The sequence of inserts

However many generators compile predicates at one store, and whatever calls of the store are refused, the
number of the last insert accounts for all that they did: every operation takes its quota of numbers
(`Fleet.Call.MayTake`), one after another, and the ids of the predicates hold the first number of each
quota (`Fleet.run_numbers`).
-/

namespace GeoWorkload

open MemoryBacked

theorem Schema.KeysDistinct.not_isKeyOf_insertKey {S : Schema} (hS : S.KeysDistinct) {slot : Int} :
    ¬ S.IsKeyOf slot S.insertKey := by
  rintro (h | h | ⟨p, hp, h⟩)
  · exact hS.ne .inserts (.docId slot) trivial trivial nofun h
  · exact hS.ne .inserts (.body slot) trivial trivial nofun h
  · exact hS.ne .inserts (.field p slot) trivial hp nofun h

/-- Taking a slot leaves the number of the last insert as it is. -/
theorem Schema.Claimed.counts_insert {S : Schema} (hS : S.KeysDistinct) {slot : Int} {m m' : MemoryStore}
    (h : S.Claimed slot m m') {c : Int} (hc : m.Counts S.insertKey c) : m'.Counts S.insertKey c := by
  obtain ⟨text, htext, hread⟩ := hc
  have hne : S.insertKey ≠ S.storedKey := hS.ne .inserts .stored trivial trivial nofun
  exact ⟨text, h.kept _ _ htext hne hS.not_isKeyOf_insertKey, hread⟩

namespace Fleet

variable {ι σ : Type}

/-- The id of the predicate that an event gave. -/
def Event.docId? (event : Event ι σ) : Option Json.Value :=
  match event.reply with
  | .ok (.predicate p) => some p.docId
  | _ => none

theorem Event.docId?_eq_some_iff {event : Event ι σ} {id : Json.Value} :
    event.docId? = some id ↔ ∃ p, event.reply = .ok (.predicate p) ∧ p.docId = id := by
  unfold docId?
  split
  · rename_i p hreply
    simp [hreply]
  · rename_i hother
    constructor
    · nofun
    · rintro ⟨p, hreply, _⟩
      exact absurd hreply (hother p)

/-- The number of an insert as the id of a document. -/
def numberedId (start : String) (z : Int) : Json.Value := .string (start ++ Numeral.decimal z)

variable [CounterStore σ] [MemoryBacked σ]

/-- The events have taken their quotas of the numbers after `c` in turn: the number of the last insert is
`c` and the quotas of the events so far before and after each event, and the id of a predicate holds the
first number of its quota.  All the ids hold `numbers`, which go up from above `c`. -/
structure Numbered (S : Schema) (settings : ι → Settings) (start : String) (c : Int)
    (events : List (Event ι σ)) (quotas : List Nat) (numbers : List Int) : Prop where
  taken : List.Forall₂ (fun event k =>
    event.call.MayTake (settings event.worker).readsPolygon event.reply.isOk k) events quotas
  before : ∀ i event, events[i]? = some event →
    (memory event.before).Counts S.insertKey (c + (quotas.take i).sum)
  after : ∀ i event, events[i]? = some event →
    (memory event.after).Counts S.insertKey (c + (quotas.take (i + 1)).sum)
  docId : ∀ i event p, events[i]? = some event → event.reply = .ok (.predicate p) →
    p.docId = numberedId start (c + (quotas.take i).sum + 1)
  issued : events.filterMap Event.docId? = numbers.map (numberedId start)
  increasing : numbers.Pairwise (· < ·)
  bounds : ∀ z ∈ numbers, c < z ∧ z ≤ c + quotas.sum

variable {S : Schema} {settings : ι → Settings} {start : String} {c : Int}

theorem numbered_nil : Numbered S settings start c ([] : List (Event ι σ)) [] [] where
  taken := .nil
  before _ _ h := by simp at h
  after _ _ h := by simp at h
  docId _ _ _ h := by simp at h
  issued := rfl
  increasing := .nil
  bounds _ h := absurd h List.not_mem_nil

/-- What an event takes of the numbers after `c`, and the id of its predicate. -/
structure Takes (S : Schema) (settings : ι → Settings) (start : String) (c : Int) (event : Event ι σ)
    (k : Nat) : Prop where
  taken : event.call.MayTake (settings event.worker).readsPolygon event.reply.isOk k
  before : (memory event.before).Counts S.insertKey c
  after : (memory event.after).Counts S.insertKey (c + k)
  docId : ∀ p, event.reply = .ok (.predicate p) → 0 < k ∧ p.docId = numberedId start (c + 1)

/-- An event that takes the numbers after those that were taken. -/
theorem Numbered.concat {events : List (Event ι σ)} {quotas : List Nat} {numbers : List Int}
    (h : Numbered S settings start c events quotas numbers) {event : Event ι σ} {k : Nat}
    (hevent : Takes S settings start (c + quotas.sum) event k) :
    ∃ numbers', Numbered S settings start c (events ++ [event]) (quotas ++ [k]) numbers' := by
  have hplace : ∀ {i : Nat} {e : Event ι σ}, (events ++ [event])[i]? = some e →
      (events[i]? = some e ∧ (quotas ++ [k]).take i = quotas.take i ∧
          (quotas ++ [k]).take (i + 1) = quotas.take (i + 1)) ∨
        (e = event ∧ (quotas ++ [k]).take i = quotas ∧ (quotas ++ [k]).take (i + 1) = quotas ++ [k]) :=
    getElem?_concat_take h.taken.length_eq
  have hsum : ((quotas ++ [k]).sum : Int) = quotas.sum + k := by
    rw [List.sum_append, List.sum_singleton, Int.natCast_add]
  have htaken := List.rel_append h.taken (.cons hevent.taken .nil)
  have hbefore : ∀ i e, (events ++ [event])[i]? = some e →
      (memory e.before).Counts S.insertKey (c + ((quotas ++ [k]).take i).sum) := by
    intro i e he
    rcases hplace he with ⟨he, htake, _⟩ | ⟨rfl, htake, _⟩
    · rw [htake]
      exact h.before i e he
    · rw [htake]
      exact hevent.before
  have hafter : ∀ i e, (events ++ [event])[i]? = some e →
      (memory e.after).Counts S.insertKey (c + ((quotas ++ [k]).take (i + 1)).sum) := by
    intro i e he
    rcases hplace he with ⟨he, _, htake⟩ | ⟨rfl, _, htake⟩
    · rw [htake]
      exact h.after i e he
    · rw [htake, hsum, ← Int.add_assoc]
      exact hevent.after
  have hdocId : ∀ i e p, (events ++ [event])[i]? = some e → e.reply = .ok (.predicate p) →
      p.docId = numberedId start (c + ((quotas ++ [k]).take i).sum + 1) := by
    intro i e p he hp
    rcases hplace he with ⟨he, htake, _⟩ | ⟨rfl, htake, _⟩
    · rw [htake]
      exact h.docId i e p he hp
    · rw [htake]
      exact (hevent.docId p hp).2
  have hbounds : ∀ z ∈ numbers, c < z ∧ z ≤ c + ((quotas ++ [k]).sum : Int) := by
    intro z hz
    have := h.bounds z hz
    omega
  cases hid : event.docId? with
  | none =>
      refine ⟨numbers, htaken, hbefore, hafter, hdocId, ?_, h.increasing, hbounds⟩
      rw [List.filterMap_append, h.issued]
      simp [hid]
  | some id =>
      obtain ⟨p, hreply, rfl⟩ := Event.docId?_eq_some_iff.mp hid
      obtain ⟨hpos, hdoc⟩ := hevent.docId p hreply
      refine ⟨numbers ++ [c + quotas.sum + 1], htaken, hbefore, hafter, hdocId, ?_, ?_, ?_⟩
      · rw [List.filterMap_append, h.issued, List.map_append]
        simp [hid, hdoc]
      · refine List.pairwise_append.mpr ⟨h.increasing, List.pairwise_singleton _ _, ?_⟩
        intro z hz z' hz'
        rw [List.mem_singleton.mp hz']
        have := h.bounds z hz
        omega
      · intro z hz
        rcases List.mem_append.mp hz with hz | hz
        · exact hbounds z hz
        · rw [List.mem_singleton.mp hz]
          omega

/-- Whatever an operation comes to, it takes its quota of the numbers after the last one. -/
theorem Effect.takes {mayRefuse : Prop} {g : Generator} {m m' : MemoryStore} {call : Call}
    {reply : Except Failure Reply} {flag' : Bool} (hS : g.schema.KeysDistinct)
    (h : Effect mayRefuse g m call reply flag' m') (hc : m.Counts g.schema.insertKey c) :
    ∃ k : Nat, call.MayTake g.settings.readsPolygon reply.isOk k ∧
      m'.Counts g.schema.insertKey (c + k) ∧
      ∀ p, reply = .ok (.predicate p) → 0 < k ∧ g.schema.Follows m p.docId := by
  cases h with
  | ingested hcontents h =>
      have hc' := h.claimed.counts_insert hS hc
      exact ⟨0, rfl, by simpa using hc', fun p hp => by cases hp⟩
  | ingestFailed h hflag =>
      have hc' : m'.Counts g.schema.insertKey c := by
        rcases h with ⟨rfl, _⟩ | ⟨_, slot, hclaimed⟩
        · exact hc
        · exact hclaimed.counts_insert hS hc
      exact ⟨0, rfl, by simpa using hc', fun p hp => by cases hp⟩
  | returned hcall hreply hk h hid hflag =>
      refine ⟨_, hk, h.counts c hc, fun p hp => hid p ?_⟩
      cases hp
      rfl
  | failed hcall hk h hflag => exact ⟨_, hk, h.counts c hc, fun p hp => by cases hp⟩

theorem Happened.takes (hS : S.KeysDistinct) (hstart : S.keyStart = .text start)
    {fleet fleet' : Fleet ι σ} {event : Event ι σ} (hfleet : ∀ i, (fleet.generators i).schema = S)
    (hsettings : ∀ i, (fleet.generators i).settings = settings i) (h : Happened fleet event fleet')
    (hc : (memory fleet.counters).Counts S.insertKey c) :
    ∃ k, Takes S settings start c event k ∧ (memory fleet'.counters).Counts S.insertKey (c + k) := by
  have hworker := hfleet event.worker
  obtain ⟨k, htake, hafter, hid⟩ := h.effect.takes (hworker ▸ hS) (hworker.symm ▸ hc)
  rw [hworker] at hafter hid
  rw [hsettings] at htake
  refine ⟨k, ⟨htake, by rwa [h.before], by rwa [h.after], fun p hp => ?_⟩, hafter⟩
  obtain ⟨hpos, start', hstart', hdoc⟩ := hid p hp
  rw [hstart, Label.text.injEq] at hstart'
  exact ⟨hpos, by rw [hdoc c hc, hstart', numberedId]⟩

/-- However the operations of the generators of a store follow one another, and whatever calls of the store
are refused, they take the numbers after the last insert in turn, each its quota: one for an insert or an
update that returns and none for one that fails, four or three for a read that returns, by whether it takes
a polygon, and fewer for one that fails, and none for any other operation.  The ids of the predicates hold
the first number of each quota, and so they go up from above the number of the last insert. -/
theorem run_numbers [Powers] [DecidableEq ι] {S : Schema} (hS : S.KeysDistinct) {fleet : Fleet ι FaultyStore}
    (hfleet : ∀ i, (fleet.generators i).schema = S) {c : Int}
    (hc : fleet.counters.memory.Counts S.insertKey c) (calls : List (ι × Call)) :
    (run calls).Returns fleet fun events fleet' => events.map Event.asked = calls ∧
      ∃ start quotas numbers, S.keyStart = .text start ∧
        Numbered S (fun i => (fleet.generators i).settings) start c events quotas numbers ∧
        fleet'.counters.memory.Counts S.insertKey (c + quotas.sum) := by
  obtain ⟨start, hstart⟩ := hS.keyStart_isText
  have hrun := run_returns hS (fun (history : List (Event ι FaultyStore)) (fleet' : Fleet ι FaultyStore) =>
    (∀ i, (fleet'.generators i).settings = (fleet.generators i).settings) ∧
    ∃ quotas numbers,
      Numbered S (fun i => (fleet.generators i).settings) start c history quotas numbers ∧
      (memory fleet'.counters).Counts S.insertKey (c + quotas.sum))
  have hnil : (memory fleet.counters).Counts S.insertKey (c + ([] : List Nat).sum) := by
    rw [List.sum_nil, Int.natCast_zero, Int.add_zero]
    exact hc
  refine (hrun ?_ calls hfleet ⟨fun _ => rfl, [], [], numbered_nil, hnil⟩).mono ?_ fun _ _ h => h
  · rintro history fleet₁ event fleet₂ hfleet ⟨hsettings, quotas, numbers, hnumbered, hc⟩ h
    obtain ⟨k, htakes, hafter⟩ := h.takes hS hstart hfleet hsettings hc
    obtain ⟨numbers', hnumbered'⟩ := hnumbered.concat htakes
    refine ⟨fun i => (h.settings i).trans (hsettings i), quotas ++ [k], numbers', hnumbered', ?_⟩
    rw [List.sum_append, List.sum_singleton, Int.natCast_add, ← Int.add_assoc]
    exact hafter
  · rintro events fleet' ⟨hasked, _, quotas, numbers, hnumbered, hc'⟩
    exact ⟨hasked, start, quotas, numbers, hstart, hnumbered, hc'⟩

/-- Two fresh generators at a seeded store with one document, which refuses the fourth call for the number of an
insert. -/
def stockedPair : Fleet Bool FaultyStore where
  generators _ := .make {} .incidents (.ofDraws [.half])
  counters := {
    memory := (do
      CounterStore.seedCounters .incidents 1 4
      CounterStore.set Schema.incidents.storedKey "1"
      CounterStore.set (Schema.incidents.bodyKey 0) "\x7b\"geometry\":\x7b\x7d\x7d"
        : Action MemoryStore Unit).after .empty
    faults := [⟨.increment, some Schema.incidents.insertKey, 3, "down"⟩] }

/-- An insert, a read that the store refuses its third number, an update and a read without a polygon: their ids hold
the numbers 7, 10 and 11, and 13 is the last number that is taken. -/
theorem run_numbers_stockedPair :
    let calls : List (Bool × Call) :=
      [(true, .compileInsert), (false, .compileRead (some true)), (true, .compileUpdate),
        (false, .compileRead (some false))]
    Schema.incidents.KeysDistinct ∧ (∀ i, (stockedPair.generators i).schema = .incidents) ∧
      stockedPair.counters.memory.Counts Schema.incidents.insertKey 6 ∧
      (((run calls).outcome stockedPair).map (fun events => events.map Event.docId?) =
          .ok [some (numberedId "usertable:::" 7), none, some (numberedId "usertable:::" 10),
            some (numberedId "usertable:::" 11)] ∧
        ((run calls).after stockedPair).counters.get? Schema.incidents.insertKey = some "13" ∧
        ((run calls).after stockedPair).counters.faults = []) ∧
      (run calls).Returns stockedPair fun events fleet' =>
        ∃ start quotas numbers, Schema.incidents.keyStart = .text start ∧
          Numbered .incidents (fun i => (stockedPair.generators i).settings) start 6 events quotas numbers ∧
          fleet'.counters.memory.Counts Schema.incidents.insertKey (6 + (quotas.sum : Int)) := by
  intro calls
  have hcounts : stockedPair.counters.memory.Counts Schema.incidents.insertKey 6 :=
    ⟨"6", by decide +kernel, by decide +kernel⟩
  have hrun := run_numbers Schema.keysDistinct_incidents (fun i => rfl) hcounts calls
  exact ⟨Schema.keysDistinct_incidents, fun i => rfl, hcounts, by decide +kernel,
    hrun.mono (fun _ _ h => h.2) fun _ _ h => h⟩

end Fleet

end GeoWorkload
