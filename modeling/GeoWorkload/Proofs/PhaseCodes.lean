import GeoWorkload.Proofs.SharedLoading
import GeoWorkload.Proofs.TraceTargets
import GeoWorkload.Proofs.WeightedMixes

/-!
# Exit codes of phases

A phase gives one or zero, and zero only if it was carried out and none of its loaders or workers was ended by a
failure (`Phase.Loads`, `Phase.Transacts`).  It fails only where the number of workers is not whole or where the
duration is greater than numbers go (`Phase.load_ensures`, `Phase.transact_ensures`).
-/

namespace GeoWorkload

/-- Settings that properties give and that have a proportion make a mix of operations. -/
theorem Settings.exists_mix {props : Json.Members} {settings : Settings} {warnings : List LogRecord}
    (h : ofProperties props = (.ok settings, warnings)) (hsome : settings.proportions ≠ []) :
    ∃ mix, Mix.ofWeights settings.namedProportions = .ok mix := by
  obtain ⟨item, hitem⟩ := List.exists_mem_of_ne_nil settings.namedProportions (by simpa [namedProportions] using hsome)
  obtain ⟨_, _, _, hpositive⟩ := (mem_namedProportions h).mp hitem
  exact Mix.exists_ofWeights hitem hpositive

namespace Phase

variable {σ : Type} [CounterStore σ]

/-- The loaders have been run on documents, and none of them was ended by a failure. -/
def Loads [Powers] (m : Surroundings) (plan : Plan) (docs : List Json.Value) (hall hall' : Hall σ) : Prop :=
  docs ≠ [] ∧ ∃ loaders totals, numbersTo (plan.limits.workers.minWith docs.length) = .ok loaders ∧
    (runLoaders m plan docs loaders).Gives hall (totals, []) hall'

/-- The workers have been run, every one of them could start, and none was ended by a failure. -/
def Transacts [Powers] (m : Surroundings) (plan : Plan) (hall hall' : Hall σ) : Prop :=
  ∃ seconds workers board, deadline plan = .ok seconds ∧ numbersTo plan.limits.workers = .ok workers ∧
    (runWorkers plan (workers.map (task m plan seconds))).Gives hall board hall' ∧ board.errors = [] ∧
    ∀ (task : Task) (crew : Crew σ),
      (Worker.run task plan.settings plan.schema plan.settings.namedProportions).Returns crew fun _ _ => True

theorem real_of_numbersTo_error {n : Amount} {e : Failure} (h : numbersTo n = .error e) :
    e = .wrongKind ∧ ∃ x, n = .real x := by
  cases n with
  | whole z => cases h
  | real x =>
      cases h
      exact ⟨rfl, x, rfl⟩

theorem real_of_minWith {n : Amount} {z : Int} {x : Binary64} (h : n.minWith z = .real x) : n = .real x := by
  unfold Amount.minWith at h
  split at h
  · cases h
  · exact h

variable {target : Option String} (hclose : CounterStore.Closes σ)

include hclose

/-- Loading gives zero only after its loaders have come to their end, and fails only where they cannot be
numbered. -/
theorem load_ensures [Powers] (m : Surroundings) (plan : Plan) (docs : List Json.Value) {hall : Hall σ}
    (h : hall.documents.target? = target) : (load m plan docs).Ensures hall
      (fun code hall' => hall'.documents.target? = target ∧
        (code = 1 ∨ code = 0 ∧ Loads m plan docs hall hall'))
      fun e hall' => hall'.documents.target? = target ∧
        e = .wrongKind ∧ ∃ x, plan.limits.workers = .real x := by
  unfold load
  dsimp only
  split
  · exact Action.ensures_log_bind (Action.ensures_pure.mpr ⟨h, Or.inl rfl⟩)
  · rename_i hdocs
    refine (logCount_returns _ _ hall).bind ?_ fun _ _ h => h.elim
    rintro _ hall rfl
    rcases hloaders : numbersTo (plan.limits.workers.minWith docs.length) with e | loaders
    · obtain ⟨rfl, x, hx⟩ := real_of_numbersTo_error hloaders
      exact (Action.ends_ofExcept _).bind_error.ensures ⟨h, rfl, x, real_of_minWith hx⟩
    · refine (Action.ends_ofExcept _).bind_ensures ?_
      refine (runLoaders_returns hclose m plan docs loaders h).gives.bind ?_ fun _ _ h => h.elim
      rintro ⟨totals, errors⟩ hall' ⟨h', hgives⟩
      refine Action.ensures_log_bind ?_
      cases errors with
      | nil =>
          refine Action.ensures_pure.mpr ⟨h', Or.inr ⟨rfl, ?_, loaders, totals, hloaders, hgives⟩⟩
          simpa using hdocs
      | cons entry rest => exact Action.ensures_log_bind (Action.ensures_pure.mpr ⟨h', Or.inl rfl⟩)

omit [CounterStore σ] hclose in
theorem summarize_returns (m : Surroundings) (coverage : Coverage) (s : σ) :
    (summarize m coverage : Action σ Unit).Returns s fun _ s' => s' = s := by
  unfold summarize
  exact Action.ensures_log_bind (Action.ensures_log_bind (Action.ensures_logAll.mpr rfl))

/-- Carrying out transactions gives zero only after its workers have come to their end, and fails only where they
cannot be numbered or their time is greater than numbers go. -/
theorem transact_ensures [Powers] (m : Surroundings) {plan : Plan} {props : Json.Members} {warnings : List LogRecord}
    (hsettings : Settings.ofProperties props = (.ok plan.settings, warnings)) {hall : Hall σ}
    (h : hall.documents.target? = target) : (transact m plan).Ensures hall
      (fun code hall' => hall'.documents.target? = target ∧
        (code = 1 ∨ code = 0 ∧ Transacts m plan hall hall'))
      fun e hall' => hall'.documents.target? = target ∧
        ((∃ e', e = .number e' ∧ deadline plan = .error e') ∨
          e = .wrongKind ∧ ∃ x, plan.limits.workers = .real x) := by
  unfold transact
  split
  · exact Action.ensures_log_bind (Action.ensures_pure.mpr ⟨h, Or.inl rfl⟩)
  · rename_i hsome
    obtain ⟨mix, hmix⟩ := Settings.exists_mix hsettings (by simpa using hsome)
    unfold Action.ofNumber
    rcases hseconds : deadline plan with e | seconds
    · exact (Action.ends_ofExcept _).bind_error.ensures ⟨h, Or.inl ⟨e, rfl, rfl⟩⟩
    · refine (Action.ends_ofExcept _).bind_ensures ?_
      dsimp only
      refine (logCount_returns _ _ hall).bind ?_ fun _ _ h => h.elim
      rintro _ hall rfl
      refine Action.ensures_ite_log_bind ?_
      rcases hworkers : numbersTo plan.limits.workers with e | workers
      · obtain ⟨rfl, hreal⟩ := real_of_numbersTo_error hworkers
        exact (Action.ends_ofExcept _).bind_error.ensures ⟨h, Or.inr ⟨rfl, hreal⟩⟩
      · refine (Action.ends_ofExcept _).bind_ensures ?_
        refine (runWorkers_returns hclose plan hmix _ h).gives.bind ?_ fun _ _ h => h.elim
        rintro board hall' ⟨h', hgives⟩
        refine (summarize_returns m board.coverage hall').bind ?_ fun _ _ h => h.elim
        rintro _ hall' rfl
        rcases herrors : board.errors with _ | ⟨⟨worker, f⟩, rest⟩
        · refine Action.ensures_ite_log_bind (Action.ensures_pure.mpr ⟨h', Or.inr ⟨rfl, ?_⟩⟩)
          refine ⟨seconds, workers, board, hseconds, hworkers, hgives, herrors, fun task crew => ?_⟩
          exact (Worker.run_returns hclose task plan.settings plan.schema hmix rfl).mono
            (fun _ _ _ => trivial) fun _ _ h => h
        · exact Action.ensures_log_bind (Action.ensures_pure.mpr ⟨h', Or.inl rfl⟩)

end Phase

end GeoWorkload
