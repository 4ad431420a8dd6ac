import GeoWorkload.Proofs.IngestEffects
import GeoWorkload.Proofs.InsertNumbers
import Mathlib.Logic.Function.Basic

/-!
# Generators at one store

Any number of generators share a counter store (`Fleet`) and carry out whole operations one after another
(`Fleet.run`), each of which may fail.  A run gives what happened as a list of events, and what holds at its
start and is kept by every operation holds of all that happened (`Fleet.run_returns`).
-/

namespace GeoWorkload

/-- Generators by name, and the store that they share. -/
structure Fleet (ι σ : Type) where
  generators : ι → Generator
  counters : σ

namespace Fleet

/-- A whole operation of a generator. -/
inductive Call where
  | ingest (key : String) (document : Json.Value)
  | compileInsert
  | compileUpdate
  | compileRead (withPolygon : Option Bool)
  | randomDocId
  | distributedDocId

/-- What an operation gives: a slot, a predicate or the id of a document. -/
inductive Reply where
  | slot (slot : Int)
  | predicate (p : Predicate)
  | docId (id : String)

/-- What happened: an operation of a generator, what it gave or how it failed, and the store before and
after it. -/
structure Event (ι σ : Type) where
  worker : ι
  call : Call
  reply : Except Failure Reply
  before : σ
  after : σ

variable {ι σ : Type}

namespace Call

variable [CounterStore σ]

/-- Carries out the operation. -/
def perform [Powers] : Call → Action (Generator.Site σ) Reply
  | ingest key document => return .slot (← Generator.ingestDocument key document)
  | compileInsert => return .predicate (← Generator.compileInsert)
  | compileUpdate => return .predicate (← Generator.compileUpdate)
  | compileRead none => return .predicate (← Generator.compileRead)
  | compileRead (some withPolygon) => return .predicate (← Generator.compileReadWith withPolygon)
  | randomDocId => return .docId (← Generator.randomDocId)
  | distributedDocId => return .docId (← Generator.distributedDocId)

/-- Whether the operation is an ingest. -/
def isIngest : Call → Bool
  | ingest .. => true
  | _ => false

/-- How many numbers of inserts an operation may take, by whether it returns; a read takes a polygon or
not, or as the settings want it. -/
def MayTake (readsPolygon returns : Bool) (k : Nat) : Call → Prop
  | compileInsert | compileUpdate => k = if returns then 1 else 0
  | compileRead withPolygon =>
    let quota := Generator.readQuota (withPolygon.getD readsPolygon)
    if returns then k = quota else k < quota
  | ingest .. | randomDocId | distributedDocId => k = 0

end Call

/-- What an operation of a generator can come to at a store with a memory: what it gives, and the flag of the
generator and the memory afterwards.  An ingest stores a document or fails, and any other operation takes
numbers of inserts. -/
inductive Effect (mayRefuse : Prop) (g : Generator) (m : MemoryStore) :
    Call → Except Failure Reply → Bool → MemoryStore → Prop where
  | ingested {key : String} {document : Json.Value} {body : String} {tokens : Tokens} {slot : Int}
      {flag' : Bool} {m' : MemoryStore}
      (hcontents : Generator.contents? g.schema document = some (body, tokens))
      (h : Generator.Ingested g.schema slot key body tokens g.allInitialized flag' m m') :
      Effect mayRefuse g m (.ingest key document) (.ok (.slot slot)) flag' m'
  | ingestFailed {key : String} {document : Json.Value} {e : Failure} {flag' : Bool} {m' : MemoryStore}
      (h : Generator.IngestFailed g.schema ((Generator.contents? g.schema document).isSome) mayRefuse
        m m') (hflag : flag' = g.allInitialized) :
      Effect mayRefuse g m (.ingest key document) (.error e) flag' m'
  | returned {call : Call} {reply : Reply} {k : Nat} {flag' : Bool} {m' : MemoryStore}
      (hcall : call.isIngest = false) (hreply : ∀ slot, reply ≠ .slot slot)
      (hk : call.MayTake g.settings.readsPolygon true k) (h : g.schema.Advanced k m m')
      (hid : ∀ p, reply = .predicate p → 0 < k ∧ g.schema.Follows m p.docId)
      (hflag : flag' = g.allInitialized) : Effect mayRefuse g m call (.ok reply) flag' m'
  | failed {call : Call} {e : Failure} {k : Nat} {flag' : Bool} {m' : MemoryStore}
      (hcall : call.isIngest = false) (hk : call.MayTake g.settings.readsPolygon false k)
      (h : g.schema.Advanced k m m') (hflag : flag' = g.allInitialized) :
      Effect mayRefuse g m call (.error e) flag' m'

section effect

variable [CounterStore σ] [MemoryBacked σ] {g : Generator} {m : MemoryStore}

open Generator MemoryBacked

/-- What an operation gives is what the function behind it gives. -/
theorem works_reply {α : Type} {x : Action (Site σ) α} {f : α → Reply} {call : Call}
    {ok : α → MemoryStore → Prop} {failed : Failure → MemoryStore → Prop} (hx : Works g m x ok failed)
    (hok : ∀ a m', ok a m' → Effect (mayRefuse σ) g m call (.ok (f a)) g.allInitialized m')
    (hfailed : ∀ e m', failed e m' → Effect (mayRefuse σ) g m call (.error e) g.allInitialized m') :
    Works g m (do return f (← x))
      (fun r m' => Effect (mayRefuse σ) g m call (.ok r) g.allInitialized m')
      fun e m' => Effect (mayRefuse σ) g m call (.error e) g.allInitialized m' :=
  hx.bind (fun a m' h => works_pure (hok a m' h)) hfailed

theorem works_perform [Powers] (hS : g.schema.KeysDistinct) {call : Call} (hcall : call.isIngest = false) :
    Works g m (call.perform : Action (Site σ) Reply)
      (fun r m' => Effect (mayRefuse σ) g m call (.ok r) g.allInitialized m')
      fun e m' => Effect (mayRefuse σ) g m call (.error e) g.allInitialized m' := by
  have hdocId : ∀ {x : Action (Site σ) String} {call : Call}, Harmless x → call.isIngest = false →
      (∀ returns, call.MayTake g.settings.readsPolygon returns 0) →
      Works g m (do return Reply.docId (← x))
        (fun r m' => Effect (mayRefuse σ) g m call (.ok r) g.allInitialized m')
        fun e m' => Effect (mayRefuse σ) g m call (.error e) g.allInitialized m' := by
    intro x call hx hcall htake
    refine works_reply (hx g m hS) ?_ ?_
    · rintro id _ rfl
      exact .returned hcall nofun (htake true) (.refl _) nofun rfl
    · rintro e _ rfl
      exact .failed hcall (htake false) (.refl _) rfl
  cases call with
  | ingest key document => cases hcall
  | compileInsert =>
      refine works_reply (works_compileInsert hS) ?_ ?_
      · rintro p m' ⟨h, hid⟩
        exact .returned rfl nofun rfl h (fun q hq => by cases hq; exact ⟨Nat.one_pos, hid⟩) rfl
      · rintro e _ rfl
        exact .failed rfl rfl (.refl _) rfl
  | compileUpdate =>
      refine works_reply (works_compileUpdate hS) ?_ ?_
      · rintro p m' ⟨h, hid⟩
        exact .returned rfl nofun rfl h (fun q hq => by cases hq; exact ⟨Nat.one_pos, hid⟩) rfl
      · rintro e _ rfl
        exact .failed rfl rfl (.refl _) rfl
  | compileRead withPolygon =>
      have hread : ∀ {x : Action (Site σ) Predicate},
          Works g m x (fun p m' => g.schema.Advanced
              (readQuota (withPolygon.getD g.settings.readsPolygon)) m m' ∧ g.schema.Follows m p.docId)
            (fun _ m' => ∃ k < readQuota (withPolygon.getD g.settings.readsPolygon),
              g.schema.Advanced k m m') →
          Works g m (do return Reply.predicate (← x))
            (fun r m' => Effect (mayRefuse σ) g m (.compileRead withPolygon) (.ok r) g.allInitialized m')
            fun e m' =>
              Effect (mayRefuse σ) g m (.compileRead withPolygon) (.error e) g.allInitialized m' := by
        intro x hx
        refine works_reply hx ?_ ?_
        · rintro p m' ⟨h, hid⟩
          refine .returned rfl nofun rfl h (fun q hq => ?_) rfl
          cases hq
          exact ⟨Nat.lt_of_lt_of_le (by decide) (three_le_readQuota _), hid⟩
        · rintro e m' ⟨k, hk, h⟩
          exact .failed rfl hk h rfl
      cases withPolygon with
      | none => exact hread (works_compileRead hS)
      | some withPolygon => exact hread (works_compileReadWith hS withPolygon)
  | randomDocId => exact hdocId harmless_randomDocId rfl fun _ => rfl
  | distributedDocId => exact hdocId harmless_distributedDocId rfl fun _ => rfl

theorem perform_ensures [Powers] (hS : g.schema.KeysDistinct) (call : Call) {site : Site σ}
    (hsite : site.Holds g m) : call.perform.Ensures site
      (fun r site' => ∃ flag' m', site'.Holds { g with allInitialized := flag' } m' ∧
        Effect (mayRefuse σ) g m call (.ok r) flag' m')
      fun e site' => ∃ flag' m', site'.Holds { g with allInitialized := flag' } m' ∧
        Effect (mayRefuse σ) g m call (.error e) flag' m' := by
  cases hcall : call.isIngest with
  | false =>
      refine (works_perform hS hcall site hsite).mono ?_ ?_
      · exact fun r site' ⟨m', hsite', h⟩ => ⟨g.allInitialized, m', hsite', h⟩
      · exact fun e site' ⟨m', hsite', h⟩ => ⟨g.allInitialized, m', hsite', h⟩
  | true =>
      cases call with
      | ingest key document =>
          refine (ingestDocument_ensures hS key document hsite).bind ?_ ?_
          · rintro slot site' ⟨body, tokens, m', flag', hcontents, hsite', h⟩
            exact Action.ensures_pure.mpr ⟨flag', m', hsite', .ingested hcontents h⟩
          · rintro e site' ⟨m', hsite', h⟩
            exact ⟨g.allInitialized, m', hsite', .ingestFailed h rfl⟩
      | _ => cases hcall

end effect

/-- The operation that an event is of, and the generator that carried it out. -/
def Event.asked (event : Event ι σ) : ι × Call := (event.worker, event.call)

/-- A generator of the fleet at the store. -/
def site (fleet : Fleet ι σ) (worker : ι) : Generator.Site σ :=
  ⟨fleet.generators worker, fleet.counters⟩

variable [DecidableEq ι]

/-- The fleet with a generator and the store as they are at a site. -/
def withSite (fleet : Fleet ι σ) (worker : ι) (site : Generator.Site σ) : Fleet ι σ :=
  ⟨Function.update fleet.generators worker site.generator, site.counters⟩

theorem withSite_generators_self (fleet : Fleet ι σ) (worker : ι) (site : Generator.Site σ) :
    (fleet.withSite worker site).generators worker = site.generator :=
  Function.update_self ..

theorem withSite_generators_of_ne (fleet : Fleet ι σ) {worker i : ι} (h : i ≠ worker)
    (site : Generator.Site σ) : (fleet.withSite worker site).generators i = fleet.generators i :=
  Function.update_of_ne h ..

theorem site_withSite (fleet : Fleet ι σ) (worker : ι) (site : Generator.Site σ) :
    (fleet.withSite worker site).site worker = site := by
  unfold Fleet.site
  rw [withSite_generators_self]
  rfl

variable [CounterStore σ]

/-- Carries out an operation of one generator and notes what happened. -/
def perform [Powers] (worker : ι) (call : Call) : Action (Fleet ι σ) (Event ι σ) := do
  let before ← Action.look (·.counters)
  let reply ← (Action.within (·.site worker) (fun site fleet => fleet.withSite worker site)
    call.perform).attempt
  let after ← Action.look (·.counters)
  return ⟨worker, call, reply, before, after⟩

/-- Carries out operations in turn and notes what happened. -/
def run [Powers] : List (ι × Call) → Action (Fleet ι σ) (List (Event ι σ))
  | [] => return []
  | (worker, call) :: rest => do
    let event ← perform worker call
    return event :: (← run rest)

/-! ### Runs -/

/-- An operation of one generator is one event, whether it fails or not, and what holds of how the operation
ends and of the site then holds of the event. -/
theorem perform_returns_of_ensures [Powers] {fleet : Fleet ι σ} {worker : ι} {call : Call}
    (post : Except Failure Reply → Generator.Site σ → Prop)
    (h : call.perform.Ensures (fleet.site worker) (fun r site' => post (.ok r) site')
      fun e site' => post (.error e) site') :
    (perform worker call).Returns fleet fun event fleet' => ∃ reply site', post reply site' ∧
      event = ⟨worker, call, reply, fleet.counters, site'.counters⟩ ∧
      fleet' = fleet.withSite worker site' := by
  have hreply : (Action.within (·.site worker) (fun site fleet => fleet.withSite worker site)
      call.perform).attempt.Returns fleet fun reply fleet' =>
        ∃ site', post reply site' ∧ fleet' = fleet.withSite worker site' := by
    refine .attempt (.within (h.mono ?_ ?_))
    · exact fun r site' hr => ⟨site', hr, rfl⟩
    · exact fun e site' he => ⟨site', he, rfl⟩
  unfold perform
  refine Action.ensures_look_bind ?_
  refine Action.Ensures.bind hreply ?_ fun _ _ h => h
  rintro reply _ ⟨site', hpost, rfl⟩
  exact Action.ensures_look_bind (Action.ensures_pure.mpr ⟨reply, site', hpost, rfl, rfl⟩)

/-- What every operation keeps true of all that happened before it is true after a run, which is one event
for each operation. -/
theorem run_returns_of_perform [Powers] (inv : List (Event ι σ) → Fleet ι σ → Prop)
    (hstep : ∀ history fleet worker call, inv history fleet →
      (perform worker call).Returns fleet fun event fleet' =>
        event.asked = (worker, call) ∧ inv (history ++ [event]) fleet')
    (calls : List (ι × Call)) {history : List (Event ι σ)} {fleet : Fleet ι σ} (h : inv history fleet) :
    (run calls).Returns fleet fun events fleet' =>
      events.map Event.asked = calls ∧ inv (history ++ events) fleet' := by
  -- the invariant speaks of all that happened, and so the history before the run is carried along
  induction calls generalizing history fleet with
  | nil =>
      unfold run
      refine Action.ensures_pure.mpr ⟨rfl, ?_⟩
      rwa [List.append_nil]
  | cons entry rest ih =>
      obtain ⟨worker, call⟩ := entry
      unfold run
      refine Action.Ensures.bind (hstep history fleet worker call h) ?_ fun _ _ h => h
      rintro event fleet' ⟨hasked, h'⟩
      refine Action.Ensures.bind (ih h') ?_ fun _ _ h => h
      rintro events fleet'' ⟨hevents, h''⟩
      refine Action.ensures_pure.mpr ⟨?_, ?_⟩
      · rw [List.map_cons, hasked, hevents]
      · rwa [List.append_assoc, List.singleton_append] at h''

/-! ### Effects of a run -/

open MemoryBacked

variable [MemoryBacked σ]

/-- What an event did to a fleet: the stores are those before and after it, the settings and the schemas are
what they were, and so are the flags of all generators but the one that carried the operation out. -/
structure Happened (fleet : Fleet ι σ) (event : Event ι σ) (fleet' : Fleet ι σ) : Prop where
  before : event.before = fleet.counters
  after : event.after = fleet'.counters
  settings : ∀ i, (fleet'.generators i).settings = (fleet.generators i).settings
  schema : ∀ i, (fleet'.generators i).schema = (fleet.generators i).schema
  others : ∀ i, i ≠ event.worker →
    (fleet'.generators i).allInitialized = (fleet.generators i).allInitialized
  effect : Effect (mayRefuse σ) (fleet.generators event.worker) (memory fleet.counters) event.call
    event.reply (fleet'.generators event.worker).allInitialized (memory fleet'.counters)

theorem happened_withSite {fleet : Fleet ι σ} {worker : ι} {site : Generator.Site σ} {call : Call}
    {reply : Except Failure Reply} {flag' : Bool} {m' : MemoryStore}
    (hsite : site.Holds { fleet.generators worker with allInitialized := flag' } m')
    (h : Effect (mayRefuse σ) (fleet.generators worker) (memory fleet.counters) call reply flag' m') :
    Happened fleet ⟨worker, call, reply, fleet.counters, site.counters⟩ (fleet.withSite worker site) := by
  have hself := fleet.withSite_generators_self worker site
  have hother : ∀ i, i ≠ worker → (fleet.withSite worker site).generators i = fleet.generators i :=
    fun i hi => fleet.withSite_generators_of_ne hi site
  refine ⟨rfl, rfl, fun i => ?_, fun i => ?_, fun i hi => by rw [hother i hi], ?_⟩
  · by_cases hi : i = worker
    · rw [hi, hself]
      exact hsite.alike.settings
    · rw [hother i hi]
  · by_cases hi : i = worker
    · rw [hi, hself]
      exact hsite.alike.schema
    · rw [hother i hi]
  · rw [hself, hsite.alike.flag]
    exact hsite.memory.symm ▸ h

/-- An operation of one generator is one event, whether it fails or not. -/
theorem perform_returns [Powers] {fleet : Fleet ι σ} {worker : ι}
    (hS : (fleet.generators worker).schema.KeysDistinct) (call : Call) :
    (perform worker call).Returns fleet fun event fleet' =>
      event.asked = (worker, call) ∧ Happened fleet event fleet' := by
  have hcall := perform_ensures hS call (fleet.site worker).holds_self
  have hperform := perform_returns_of_ensures (fun reply site' =>
    Happened fleet ⟨worker, call, reply, fleet.counters, site'.counters⟩ (fleet.withSite worker site'))
    (hcall.mono (fun r site ⟨flag', m', hsite, h⟩ => happened_withSite hsite h)
      fun e site ⟨flag', m', hsite, h⟩ => happened_withSite hsite h)
  refine hperform.mono ?_ fun _ _ h => h
  rintro _ _ ⟨reply, site', h, rfl, rfl⟩
  exact ⟨rfl, h⟩

section run

variable {S : Schema} (hS : S.KeysDistinct) (inv : List (Event ι σ) → Fleet ι σ → Prop)
  (hstep : ∀ history fleet event fleet', (∀ i, (fleet.generators i).schema = S) → inv history fleet →
    Happened fleet event fleet' → inv (history ++ [event]) fleet')
include hS hstep

theorem run_returns_from [Powers] (calls : List (ι × Call)) {history : List (Event ι σ)} {fleet : Fleet ι σ}
    (hfleet : ∀ i, (fleet.generators i).schema = S) (h : inv history fleet) :
    (run calls).Returns fleet fun events fleet' =>
      events.map Event.asked = calls ∧ inv (history ++ events) fleet' := by
  have hkept : ∀ (history : List (Event ι σ)) (fleet : Fleet ι σ) (worker : ι) (call : Call),
      ((∀ i, (fleet.generators i).schema = S) ∧ inv history fleet) →
      (perform worker call).Returns fleet fun event fleet' => event.asked = (worker, call) ∧
        (∀ i, (fleet'.generators i).schema = S) ∧ inv (history ++ [event]) fleet' := by
    rintro history fleet worker call ⟨hfleet, h⟩
    refine (perform_returns (hfleet worker ▸ hS) call).mono ?_ fun _ _ h => h
    rintro event fleet' ⟨hasked, hhappened⟩
    exact ⟨hasked, fun i => (hhappened.schema i).trans (hfleet i),
      hstep history fleet event fleet' hfleet h hhappened⟩
  have hrun := run_returns_of_perform (fun history fleet => (∀ i, (fleet.generators i).schema = S) ∧
    inv history fleet) hkept calls ⟨hfleet, h⟩
  refine hrun.mono ?_ fun _ _ h => h
  exact fun events fleet' ⟨hasked, _, h'⟩ => ⟨hasked, h'⟩

/-- What every event keeps true of all that happened before it is true after a run, which is one event for
each operation. -/
theorem run_returns [Powers] (calls : List (ι × Call)) {fleet : Fleet ι σ}
    (hfleet : ∀ i, (fleet.generators i).schema = S) (h : inv [] fleet) :
    (run calls).Returns fleet fun events fleet' =>
      events.map Event.asked = calls ∧ inv events fleet' :=
  run_returns_from hS inv hstep calls hfleet h

end run

/-- The place of an element of a list with one more at its end, and how much of another list of the same
length comes before it and up to it. -/
theorem getElem?_concat_take {α β : Type} {as : List α} {bs : List β} (hlen : as.length = bs.length)
    {a e : α} {b : β} {i : Nat} (h : (as ++ [a])[i]? = some e) :
    (as[i]? = some e ∧ (bs ++ [b]).take i = bs.take i ∧ (bs ++ [b]).take (i + 1) = bs.take (i + 1)) ∨
      (e = a ∧ (bs ++ [b]).take i = bs ∧ (bs ++ [b]).take (i + 1) = bs ++ [b]) := by
  rcases Nat.lt_trichotomy i as.length with hlt | rfl | hlt
  · rw [List.getElem?_append_left hlt] at h
    rw [List.take_append_of_le_length (by omega), List.take_append_of_le_length (by omega)]
    exact Or.inl ⟨h, rfl, rfl⟩
  · rw [List.getElem?_concat_length, Option.some.injEq] at h
    refine Or.inr ⟨h.symm, ?_, List.take_of_length_le (by simp [hlen])⟩
    rw [hlen, List.take_left]
  · rw [List.getElem?_eq_none (by rw [List.length_append, List.length_singleton]; omega)] at h
    cases h

end Fleet

end GeoWorkload
