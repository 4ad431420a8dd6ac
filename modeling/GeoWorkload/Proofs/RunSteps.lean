import GeoWorkload.Program.Run
import GeoWorkload.Proofs.FilePaths
import GeoWorkload.Proofs.Outcomes

/-!
# Steps of a run

What holds however a step of a run ends (`Step.Ensures`): one condition on the value and the course where it gives
a value, and another on the exit and the course where it ends the run.  Making records changes neither the
schemas that have been defined nor which paths lead to files (`Course.Records`).
-/

namespace GeoWorkload

/-! ### Records -/

namespace Course

/-- What making records leaves as it was: the schemas, and that paths lead to files. -/
structure Records (c c' : Course) : Prop where
  registry : c'.world.registry = c.world.registry
  leads : ∀ p, c.world.files.Leads p → c'.world.files.Leads p

theorem Records.refl (c : Course) : Records c c := ⟨rfl, fun _ h => h⟩

theorem Records.trans {c c' c'' : Course} (h : Records c c') (h' : Records c' c'') : Records c c'' :=
  ⟨h'.registry.trans h.registry, fun p hp => h'.leads p (h.leads p hp)⟩

theorem records_note (m : Surroundings) (c : Course) (record : LogRecord) : Records c (c.note m record) := by
  unfold note
  split
  · refine ⟨rfl, fun p hp => ?_⟩
    dsimp only
    split
    · exact FileChange.leads_append hp _ _
    · exact hp
  · exact .refl c

theorem records_noteAll (m : Surroundings) (c : Course) (records : List LogRecord) :
    Records c (c.noteAll m records) := by
  induction records generalizing c with
  | nil => exact .refl c
  | cons record rest ih => exact (records_note m c record).trans (ih _)

end Course

/-! ### Steps -/

namespace Step

variable {α β : Type} {x : Step α} {c : Course} {ok ok' : α → Course → Prop} {quits quits' : Exit → Course → Prop}

/-- In the course `c` the step gives a value with `ok`, or it ends the run with `quits`. -/
def Ensures (x : Step α) (c : Course) (ok : α → Course → Prop) (quits : Exit → Course → Prop) : Prop :=
  match x.run.run c with
  | (.ok a, c') => ok a c'
  | (.error e, c') => quits e c'

/-- What a step does is what it does. -/
theorem ensures_run (x : Step α) (c : Course) : x.Ensures c (fun a c' => x.run.run c = (.ok a, c'))
    fun e c' => x.run.run c = (.error e, c') := by
  unfold Ensures
  rcases x.run.run c with ⟨_ | _, _⟩ <;> rfl

theorem Ensures.of_run (h : x.Ensures c ok quits) {a : α} {c' : Course} (hrun : x.run.run c = (.ok a, c')) :
    ok a c' := by
  unfold Ensures at h
  rwa [hrun] at h

theorem Ensures.of_run_error (h : x.Ensures c ok quits) {e : Exit} {c' : Course}
    (hrun : x.run.run c = (.error e, c')) : quits e c' := by
  unfold Ensures at h
  rwa [hrun] at h

theorem Ensures.mono (h : x.Ensures c ok quits) (hok : ∀ a c', ok a c' → ok' a c')
    (hquits : ∀ e c', quits e c' → quits' e c') : x.Ensures c ok' quits' := by
  unfold Ensures at h ⊢
  generalize x.run.run c = r at h ⊢
  obtain ⟨e | a, c'⟩ := r
  · exact hquits e c' h
  · exact hok a c' h

theorem Ensures.and (h : x.Ensures c ok quits) (h' : x.Ensures c ok' quits') :
    x.Ensures c (fun a c' => ok a c' ∧ ok' a c') fun e c' => quits e c' ∧ quits' e c' := by
  unfold Ensures at h h' ⊢
  generalize x.run.run c = r at h h' ⊢
  obtain ⟨e | a, c'⟩ := r
  · exact ⟨h, h'⟩
  · exact ⟨h, h'⟩

theorem Ensures.bind {f : α → Step β} {ok' : β → Course → Prop} (h : x.Ensures c ok quits)
    (hok : ∀ a c', ok a c' → (f a).Ensures c' ok' quits') (hquits : ∀ e c', quits e c' → quits' e c') :
    (x >>= f).Ensures c ok' quits' := by
  unfold Ensures
  rcases hrun : x.run.run c with ⟨e | a, c'⟩
  · rw [run_bind_of_error hrun]
    exact hquits e c' (h.of_run_error hrun)
  · rw [run_bind_of_ok hrun]
    exact hok a c' (h.of_run hrun)

@[simp] theorem ensures_pure {a : α} : (pure a : Step α).Ensures c ok quits ↔ ok a c := Iff.rfl

@[simp] theorem ensures_quit {e : Exit} : (quit e : Step α).Ensures c ok quits ↔ quits e c := Iff.rfl

theorem ensures_ofExcept {r : Except Exit α} (hok : ∀ a, r = .ok a → ok a c)
    (hquits : ∀ e, r = .error e → quits e c) : (ofExcept r).Ensures c ok quits := by
  cases r with
  | ok a => exact hok a rfl
  | error e => exact hquits e rfl

theorem ensures_get : (get : Step Course).Ensures c (fun a c' => a = c ∧ c' = c) fun _ _ => False := ⟨rfl, rfl⟩

theorem ensures_files : files.Ensures c (fun fs c' => fs = c.world.files ∧ c' = c) fun _ _ => False := ⟨rfl, rfl⟩

theorem ensures_modify {f : Course → Course} {ok : PUnit → Course → Prop} (h : ok ⟨⟩ (f c)) :
    (modify f : Step PUnit).Ensures c ok quits := h

theorem ensures_log (m : Surroundings) (level : LogLevel) (text : String) (c : Course) :
    (log m level text).Ensures c (fun _ c' => c.Records c') fun _ _ => False :=
  ensures_modify (c.records_note m _)

theorem ensures_logAll (m : Surroundings) (records : List LogRecord) (c : Course) :
    (logAll m records).Ensures c (fun _ c' => c.Records c') fun _ _ => False :=
  ensures_modify (c.records_noteAll m records)

/-- What is done with the value of a step or with the exit it leads to. -/
theorem Ensures.attempt_bind {f : Except Exit α → Step β} {ok' : β → Course → Prop} (h : x.Ensures c ok quits)
    (hok : ∀ a c', ok a c' → (f (.ok a)).Ensures c' ok' quits')
    (hquits : ∀ e c', quits e c' → (f (.error e)).Ensures c' ok' quits') :
    (x.attempt >>= f).Ensures c ok' quits' := by
  have hattempt : x.attempt.run.run c = (.ok (x.run.run c).1, (x.run.run c).2) := rfl
  unfold Ensures
  rw [run_bind_of_ok hattempt]
  rcases hrun : x.run.run c with ⟨e | a, c'⟩
  · exact hquits e c' (h.of_run_error hrun)
  · exact hok a c' (h.of_run hrun)

/-- What a change of the files comes to; a fault ends the run. -/
theorem ensures_change {y : FileChange Unit} {ok : Unit → Course → Prop}
    (hok : ∀ fs, y.run.run c.world.files = (.ok (), fs) → ok () { c with world := { c.world with files := fs } })
    (hquits : ∀ fault fs, y.run.run c.world.files = (.error fault, fs) →
      quits (.escaped (.file fault)) { c with world := { c.world with files := fs } }) :
    (change y).Ensures c ok quits := by
  have hrun : (change y).run.run c = ((y.run.run c.world.files).1.mapError fun fault => .escaped (.file fault),
      { c with world := { c.world with files := (y.run.run c.world.files).2 } }) := rfl
  unfold Ensures
  rw [hrun]
  rcases hy : y.run.run c.world.files with ⟨fault | _, fs⟩
  · exact hquits fault fs hy
  · exact hok fs hy

/-- The path that a text writes, if it writes one. -/
theorem ensures_path {m : Surroundings} {text : String} {ok : Path → Course → Prop}
    (hok : ∀ p, Files.pathOf m.homes text = .ok p → ok p c)
    (hquits : ∀ fault, Files.pathOf m.homes text = .error fault → quits (.escaped (.file fault)) c) :
    (path m text).Ensures c ok quits := by
  refine ensures_ofExcept (fun p hp => hok p (of_mapError_eq_ok hp)) fun e he => ?_
  obtain ⟨fault, hfault, rfl⟩ := exists_of_mapError he
  exact hquits fault hfault

-- what a step ensures is to follow from the rules above, not from running it
attribute [irreducible] Ensures

end Step

namespace Program

variable {σ α : Type} {c : Course}

/-- Carrying out an action within a run gives its outcome and makes records. -/
theorem perform_ensures (m : Surroundings) {x : Action σ α} {s : σ} {ok : α → σ → Prop} {failed : Failure → σ → Prop}
    (h : x.Ensures s ok failed) : (perform m x s).Ensures c
      (fun out c' => c.Records c' ∧ match out with
        | (.ok a, s') => ok a s'
        | (.error e, s') => failed e s')
      fun _ _ => False := by
  unfold perform
  have hx : match (x.run s #[]).1 with
      | (.ok a, s') => ok a s'
      | (.error e, s') => failed e s' := by
    rcases h.run_cases #[] with ⟨a, s', log, hrun, ha⟩ | ⟨e, s', log, hrun, he⟩
    · unfold Action.run
      rw [hrun]
      exact ha
    · unfold Action.run
      rw [hrun]
      exact he
  generalize x.run s #[] = r at hx ⊢
  obtain ⟨out, log⟩ := r
  exact (Step.ensures_logAll m log.toList c).bind
    (fun _ c' hc' => Step.ensures_pure.mpr ⟨hc', hx⟩) fun _ _ h => h

end Program

end GeoWorkload
