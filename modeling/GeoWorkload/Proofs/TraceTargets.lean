import GeoWorkload.Program.Phases
import GeoWorkload.Proofs.Transactions

/-!
# What a store of documents writes to

Nothing that a workload does changes what its store of documents writes to: a trace stays one, and so does a
store that was given a value of another kind (`DocumentStore.target?`).  Every transaction and every load
preserves that, however it ends, and so the loaders and the workers of a phase, which never fail as a whole
(`Phase.runLoaders_returns`, `Phase.runWorkers_returns`).
-/

namespace GeoWorkload

/-- The kind of the value that the store was given in place of a stream, if it was given one. -/
def DocumentStore.target? : DocumentStore → Option String
  | .misdirected kind => some kind
  | .bare | .trace _ => none

variable {target : Option String}

theorem DocumentStore.preserves_request (r : Request) :
    Action.Preserves (fun documents => documents.target? = target) (request r) fun _ => True := by
  intro documents h
  unfold request
  refine Action.ensures_look_bind ?_
  cases documents with
  | bare => exact Action.ensures_log_bind (Action.ensures_pure.mpr ⟨h, trivial⟩)
  | trace t => exact Action.Ensures.within (Action.ensures_true.mono (fun _ _ _ => ⟨h, trivial⟩) fun _ _ _ => h)
  | misdirected kind =>
      have hline : Action.Preserves (fun documents => documents.target? = target)
          (Action.ofNumber r.line? : Action DocumentStore String) fun _ => True :=
        Action.preserves_ofExcept fun _ _ => trivial
      exact (hline.bind fun _ _ => Action.preserves_fail _) _ h

/-- The store of documents of a station writes to what it is given. -/
def Station.Writes {σ : Type} (target : Option String) (station : Station σ) : Prop :=
  station.documents.target? = target

open Station

variable {σ : Type}

theorem Station.preserves_onSite {α : Type} (x : Action (Generator.Site σ) α) :
    Action.Preserves (Writes target) (onSite x) fun _ => True := by
  intro station h
  exact Action.Ensures.within (Action.ensures_true.mono (fun _ _ _ => ⟨h, trivial⟩) fun _ _ _ => h)

theorem Station.preserves_request (r : Request) :
    Action.Preserves (Writes target) (onDocuments (DocumentStore.request r) : Action (Station σ) Status)
      fun _ => True :=
  (DocumentStore.preserves_request r).within (fun _ h => h) fun _ _ _ h => h

variable [CounterStore σ] {table : Json.Value}

namespace Transaction

variable [Powers]

theorem preserves_perform (op : Operation) :
    Action.Preserves (Writes target) (perform table op : Action (Station σ) Status) fun _ => True := by
  rw [perform_eq]
  exact (preserves_onSite _).bind fun r _ => Station.preserves_request r

theorem preserves_dispatch (name : String) :
    Action.Preserves (Writes target) (dispatch table name : Action (Station σ) Status) fun _ => True := by
  unfold dispatch
  split
  · exact preserves_perform _
  · exact Action.preserves_fail _

theorem preserves_transaction (mix : Mix String) :
    Action.Preserves (Writes target) (next table mix : Action (Station σ) (String × Status)) fun _ => True := by
  refine (preserves_onSite _).bind fun name _ => ?_
  have hrun : Action.Preserves (Writes target) (Transaction.run table name : Action (Station σ) Status)
      fun _ => True := (preserves_dispatch name).attempt.bind fun r _ => preserves_settle _ name r
  exact hrun.bind fun _ _ => Action.preserves_pure trivial

end Transaction

namespace Load

variable [Powers]

theorem preserves_insert :
    Action.Preserves (Writes target) (insert table : Action (Station σ) Status) fun _ => True := by
  refine (Transaction.preserves_perform .insert).attempt.bind fun r _ => ?_
  cases r with
  | ok status => exact Action.preserves_pure trivial
  | error f =>
      dsimp only
      split
      · exact fun _ h => Action.ensures_log_bind (Action.ensures_pure.mpr ⟨h, trivial⟩)
      · exact Action.preserves_fail f

theorem preserves_inserts (count : Nat) (counts : LoadCounts) :
    Action.Preserves (Writes target) (inserts table count counts : Action (Station σ) LoadCounts)
      fun _ => True := by
  induction count generalizing counts with
  | zero => exact Action.preserves_pure trivial
  | succ count ih => exact preserves_insert.bind fun status _ => ih _

theorem preserves_documents (perDocument : Nat) (docs : List Json.Value) (counts : LoadCounts) :
    Action.Preserves (Writes target) (documents table perDocument docs counts : Action (Station σ) LoadCounts)
      fun _ => True := by
  induction docs generalizing counts with
  | nil => exact Action.preserves_pure trivial
  | cons doc rest ih =>
      refine (preserves_onSite _).bind fun key _ => (preserves_onSite _).bind fun _ _ => ?_
      exact (preserves_inserts _ _).bind fun counts _ => ih counts

theorem preserves_run (records total : Int) (docs : List Json.Value) :
    Action.Preserves (Writes target) (run table records total docs : Action (Station σ) LoadCounts)
      fun _ => True := by
  have hper : Action.Preserves (Writes target)
      (Action.ofNumber (insertsPerDocument records total) : Action (Station σ) Int) fun _ => True :=
    Action.preserves_ofExcept fun _ _ => trivial
  refine hper.bind fun perDocument _ => (preserves_documents _ docs {}).bind fun counts _ => ?_
  exact fun _ h => Action.ensures_log_bind (Action.ensures_pure.mpr ⟨h, trivial⟩)

end Load

/-! ### Loaders and workers -/

/-- The use of such a store can always be ended. -/
def CounterStore.Closes (σ : Type) [CounterStore σ] : Prop :=
  ∀ s : σ, (CounterStore.close : Action σ Unit).Returns s fun _ _ => True

theorem MemoryStore.closes : CounterStore.Closes MemoryStore := fun _ => Action.ensures_pure.mpr trivial

variable [Powers]

namespace Loader

variable (hclose : CounterStore.Closes σ)

include hclose

/-- A loader never fails, where the store lets itself be closed: a failure that ends its work is noted. -/
theorem run_returns (settings : Settings) (S : Schema) (moment : Int) (loader : Nat) (docs : List Json.Value)
    {crew : LoaderCrew σ} (h : crew.documents.target? = target) :
    (run settings S table moment loader docs).Returns crew
      fun _ crew' => crew'.documents.target? = target := by
  have hleave : ∀ crew : LoaderCrew σ, crew.documents.target? = target →
      (Action.within (·.counters) (fun counters (crew : LoaderCrew σ) => { crew with counters })
        CounterStore.close).Returns crew fun _ crew' => crew'.documents.target? = target :=
    fun crew h => Action.Ensures.within ((hclose crew.counters).mono (fun _ _ _ => h) fun _ _ h => h)
  have hwork : (work settings table (Worker.generator settings S moment loader) docs).attempt.Returns crew
      fun _ crew' => crew'.documents.target? = target := by
    refine Action.Ensures.attempt (Action.Ensures.within ?_)
    exact (Load.preserves_run _ _ docs ⟨_, crew.counters, crew.documents⟩ h).mono (fun _ _ h => h.1) fun _ _ h => h
  unfold run
  refine hwork.bind (fun r crew' h' => ?_) fun _ _ h => h
  cases r with
  | ok counts => exact Action.ensures_change_bind (Action.ensures_log_bind (hleave _ h'))
  | error f => exact Action.ensures_change_bind (Action.ensures_log_bind (hleave _ h'))

theorem runAll_returns (settings : Settings) (S : Schema) (moment : Int) (count : Nat) (docs : List Json.Value)
    (loaders : List Nat) {crew : LoaderCrew σ} (h : crew.documents.target? = target) :
    (runAll settings S table moment count docs loaders).Returns crew
      fun _ crew' => crew'.documents.target? = target := by
  induction loaders generalizing crew with
  | nil => exact Action.ensures_pure.mpr h
  | cons loader rest ih =>
      unfold runAll
      exact (run_returns hclose settings S moment loader _ h).bind (fun _ _ h' => ih h') fun _ _ h => h

end Loader

namespace Worker

theorem preserves_turn (task : Task) (mix : Mix String) (done : Nat) :
    Action.Preserves (fun desk : Desk σ => desk.station.Writes target) (turn task mix done) fun _ => True := by
  refine ((Transaction.preserves_transaction mix).within (fun _ h => h) fun _ _ _ h => h).bind ?_
  exact fun result _ desk h => Action.ensures_change_bind (Action.ensures_log.mpr ⟨h, trivial⟩)

theorem preserves_turns (task : Task) (mix : Mix String) (budget done : Nat) :
    Action.Preserves (fun desk : Desk σ => desk.station.Writes target) (turns task mix budget done)
      fun _ => True := by
  induction budget generalizing done with
  | zero => exact Action.preserves_pure trivial
  | succ budget ih =>
      intro desk h
      unfold turns
      refine Action.ensures_look_bind ?_
      split
      · exact Action.ensures_pure.mpr ⟨h, trivial⟩
      · exact ((preserves_turn task mix (done + 1)).bind fun _ _ => ih (done + 1)) desk h

theorem atDesk_returns (task : Task) (mix : Mix String) {desk : Desk σ} (h : desk.station.Writes target) :
    (atDesk task mix).Returns desk fun _ desk' => desk'.station.Writes target := by
  have hturns : (turns task mix task.budget 0).attempt.Returns desk
      fun _ desk' => desk'.station.Writes target :=
    Action.Ensures.attempt ((preserves_turns task mix _ _ desk h).mono (fun _ _ h => h.1) fun _ _ h => h)
  unfold atDesk
  refine hturns.bind (fun r desk' h' => ?_) fun _ _ h => h
  unfold report
  cases r with
  | ok _ => exact Action.ensures_change_bind (Action.ensures_pure.mpr h')
  | error f =>
      unfold abort
      refine Action.Ensures.bind (Action.ensures_change_bind (Action.ensures_log.mpr ?_))
        (fun _ _ h => Action.ensures_change.mpr h) fun _ _ h => h
      exact h'

section closing

variable (hclose : CounterStore.Closes σ)

include hclose

/-- A worker that has a mix of operations never fails, where the store lets itself be closed. -/
theorem run_returns (task : Task) (settings : Settings) (S : Schema) {proportions : List (String × Binary64)}
    {mix : Mix String} (hmix : Mix.ofWeights proportions = .ok mix) {crew : Crew σ}
    (h : crew.documents.target? = target) :
    (run task settings S proportions).Returns crew fun _ crew' => crew'.documents.target? = target := by
  have hdesk : (Action.within (Desk.ofCrew (generator settings S task.moment task.worker))
      (fun desk _ => desk.toCrew) (atDesk task mix)).Returns crew
        fun _ crew' => crew'.documents.target? = target :=
    Action.Ensures.within (atDesk_returns task mix h)
  unfold run
  rw [hmix]
  refine (Action.ends_ofExcept _).bind_ensures (hdesk.bind (fun _ crew' h' => ?_) fun _ _ h => h)
  exact Action.Ensures.within ((hclose crew'.counters).mono (fun _ _ _ => h') fun _ _ h => h)

end closing

end Worker

/-! ### Phases -/

namespace Phase

variable (hclose : CounterStore.Closes σ)

include hclose

/-- The loaders of a phase always come to an end with what they have loaded and the failures of some. -/
theorem runLoaders_returns (m : Surroundings) (plan : Plan) (docs : List Json.Value) (loaders : List Nat)
    {hall : Hall σ} (h : hall.documents.target? = target) :
    (runLoaders m plan docs loaders).Returns hall fun _ hall' => hall'.documents.target? = target := by
  unfold runLoaders
  refine Action.Ensures.within ?_
  refine (Loader.runAll_returns hclose plan.settings plan.schema m.moment loaders.length docs loaders h).bind
    ?_ fun _ _ h => h
  exact fun _ _ h' => Action.ensures_look.mpr h'

theorem workAll_returns (plan : Plan) {mix : Mix String} (hmix : Mix.ofWeights plan.settings.namedProportions = .ok mix)
    (tasks : List Task) {crew : Crew σ} (h : crew.documents.target? = target) :
    (workAll plan tasks).Returns crew fun _ crew' => crew'.documents.target? = target := by
  induction tasks generalizing crew with
  | nil => exact Action.ensures_pure.mpr h
  | cons task rest ih =>
      unfold workAll
      have hworker := (Worker.run_returns hclose task plan.settings plan.schema hmix h).attempt_ok
      refine hworker.bind (fun _ crew' h' => ?_) fun _ _ h => h
      obtain ⟨_, _, h'⟩ := h'
      exact ih h'

/-- The workers of a phase always come to an end with what they have reported. -/
theorem runWorkers_returns (plan : Plan) {mix : Mix String}
    (hmix : Mix.ofWeights plan.settings.namedProportions = .ok mix) (tasks : List Task) {hall : Hall σ}
    (h : hall.documents.target? = target) :
    (runWorkers plan tasks).Returns hall fun _ hall' => hall'.documents.target? = target := by
  unfold runWorkers
  refine Action.Ensures.within ((workAll_returns hclose plan hmix tasks h).bind ?_ fun _ _ h => h)
  exact fun _ _ h' => Action.ensures_look.mpr h'

end Phase

end GeoWorkload
