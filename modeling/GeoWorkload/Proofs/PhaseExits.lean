import GeoWorkload.Proofs.PhaseCodes
import GeoWorkload.Proofs.RunSteps

/-!
# What the phases of a run lead to

The phases of a run give zero only if each of those that were asked for was carried out to its end
(`Program.Completed`), and they end the run only for what their plan and the corpus are (`Plan.PhaseFlaw`).
-/

namespace GeoWorkload

/-- What about a plan and the corpus makes the phases end with an error that nothing handles. -/
inductive Plan.PhaseFlaw (m : Surroundings) (plan : Plan) (files : Files) : Escape → Prop
  /-- The corpus is named by a value that is no text. -/
  | corpusName (hload : plan.arguments.load = true)
      (h : ∀ name, plan.configuration.corpus ≠ .string name) : PhaseFlaw m plan files (.failure .wrongKind)
  /-- The corpus is no text or holds a number with too many digits. -/
  | corpus {name : String} {fault : CorpusFileFault} (hload : plan.arguments.load = true)
      (h : plan.configuration.corpus = .string name) (hread : Corpus.ofFile files m.homes name = .error fault)
      (hfault : fault.isExpected = false) : PhaseFlaw m plan files (.corpus fault)
  /-- The number of workers is given as a number that may have a fraction. -/
  | workers {x : Binary64} (h : plan.limits.workers = .real x) : PhaseFlaw m plan files (.failure .wrongKind)
  /-- The duration is greater than numbers go. -/
  | duration {e : NumberError} (hrun : plan.arguments.run = true) (h : Phase.deadline plan = .error e) :
      PhaseFlaw m plan files (.failure (.number e))

namespace Program

variable {σ : Type} [CounterStore σ] {target : Option String}

/-- The corpus has been read and its documents have been loaded. -/
def LoadsCorpus [Powers] (m : Surroundings) (plan : Plan) (files : Files) (hall hall' : Hall σ) : Prop :=
  ∃ name docs, plan.configuration.corpus = .string name ∧ Corpus.ofFile files m.homes name = .ok docs ∧
    Phase.Loads m plan docs hall hall'

/-- Each phase that was asked for has been carried out to its end, and no loader and no worker was ended by a
failure. -/
def Completed [Powers] (m : Surroundings) (plan : Plan) (files : Files) (hall hall' : Hall σ) : Prop :=
  ∃ loaded, (if plan.arguments.load then LoadsCorpus m plan files hall loaded else loaded = hall) ∧
    if plan.arguments.run then Phase.Transacts m plan loaded hall' else hall' = loaded

/-- The phases of a run that was at `c` have made records and have left what documents are written to; they have
given one, or zero with `done`, or an error that nothing handles for what the plan or the corpus is. -/
def Phased (m : Surroundings) (plan : Plan) (target : Option String) (c : Course) (done : Hall σ → Prop)
    (out : Except Exit Nat × Hall σ) (c' : Course) : Prop :=
  c.Records c' ∧ out.2.documents.target? = target ∧ match out.1 with
    | .ok code => code = 1 ∨ code = 0 ∧ done out.2
    | .error e => ∃ e', e = .escaped e' ∧ plan.PhaseFlaw m c.world.files e'

theorem readCorpus_ensures (m : Surroundings) {plan : Plan} (hload : plan.arguments.load = true) (c : Course) :
    (readCorpus m plan).Ensures c
      (fun out c' => c.Records c' ∧ match out with
        | .error code => code = 1
        | .ok docs => ∃ name, plan.configuration.corpus = .string name ∧
          Corpus.ofFile c.world.files m.homes name = .ok docs)
      fun e c' => c.Records c' ∧ ∃ e', e = .escaped e' ∧ plan.PhaseFlaw m c.world.files e' := by
  unfold readCorpus
  split
  · rename_i name hname
    refine Step.ensures_files.bind ?_ fun _ _ h => h.elim
    rintro _ c ⟨rfl, rfl⟩
    split
    · rename_i docs hdocs
      exact Step.ensures_pure.mpr ⟨.refl c, name, hname, hdocs⟩
    · rename_i fault hfault
      split
      · exact (Step.ensures_log m _ _ c).bind (fun _ _ h => Step.ensures_pure.mpr ⟨h, rfl⟩) fun _ _ h => h.elim
      · rename_i hunexpected
        refine Step.ensures_quit.mpr ⟨.refl c, _, rfl, .corpus hload hname hfault ?_⟩
        simpa using hunexpected
  · rename_i hname
    exact Step.ensures_quit.mpr ⟨.refl c, _, rfl, .corpusName hload hname⟩

variable (hclose : CounterStore.Closes σ)

include hclose

variable [Powers]

theorem loadPhase_ensures (m : Surroundings) {plan : Plan} (hload : plan.arguments.load = true)
    {hall : Hall σ} (htarget : hall.documents.target? = target) (c : Course) :
    (loadPhase m plan hall).Ensures c
      (Phased m plan target c (LoadsCorpus m plan c.world.files hall)) fun _ _ => False := by
  unfold loadPhase
  refine (readCorpus_ensures m hload c).attempt_bind ?_ ?_
  · rintro (code | docs) c' ⟨hrecords, hout⟩
    · exact Step.ensures_pure.mpr ⟨hrecords, htarget, Or.inl hout⟩
    · obtain ⟨name, hname, hdocs⟩ := hout
      refine (perform_ensures m (Phase.load_ensures hclose m plan docs htarget)).bind ?_ fun _ _ h => h
      rintro ⟨e | code, hall'⟩ c'' ⟨hrecords', htarget', hphase⟩
      · obtain ⟨rfl, x, hx⟩ := hphase
        exact Step.ensures_pure.mpr ⟨hrecords.trans hrecords', htarget', _, rfl, .workers hx⟩
      · refine Step.ensures_pure.mpr ⟨hrecords.trans hrecords', htarget', ?_⟩
        exact hphase.imp_right fun ⟨h, hloads⟩ => ⟨h, name, docs, hname, hdocs, hloads⟩
  · rintro e c' ⟨hrecords, hflaw⟩
    exact Step.ensures_pure.mpr ⟨hrecords, htarget, hflaw⟩

section

variable {plan : Plan} {props : Json.Members} {warnings : List LogRecord} {hall : Hall σ} {c c' : Course}

theorem transactPhase_ensures (m : Surroundings) (hrun : plan.arguments.run = true)
    (hsettings : Settings.ofProperties props = (.ok plan.settings, warnings))
    (htarget : hall.documents.target? = target) (hrecords : c.Records c') :
    (transactPhase m plan hall).Ensures c'
      (Phased m plan target c (Phase.Transacts m plan hall)) fun _ _ => False := by
  unfold transactPhase
  refine (perform_ensures m (Phase.transact_ensures hclose m hsettings htarget)).bind ?_ fun _ _ h => h
  rintro ⟨e | code, hall'⟩ c'' ⟨hrecords', htarget', hphase⟩
  · refine Step.ensures_pure.mpr ⟨hrecords.trans hrecords', htarget', ?_⟩
    rcases hphase with ⟨e', rfl, hseconds⟩ | ⟨rfl, x, hx⟩
    · exact ⟨_, rfl, .duration hrun hseconds⟩
    · exact ⟨_, rfl, .workers hx⟩
  · exact Step.ensures_pure.mpr ⟨hrecords.trans hrecords', htarget', hphase⟩

/-- What is left to do once the loading phase has come to its end. -/
theorem afterLoading_ensures (m : Surroundings)
    (hsettings : Settings.ofProperties props = (.ok plan.settings, warnings)) {r : Except Exit Nat} {loaded : Hall σ}
    (h : Phased m plan target c
      (fun loaded => if plan.arguments.load then LoadsCorpus m plan c.world.files hall loaded else loaded = hall)
      (r, loaded) c') :
    Step.Ensures (match r with
      | .ok 0 => if plan.arguments.run then transactPhase m plan loaded else return (r, loaded)
      | _ => return (r, loaded)) c'
      (Phased m plan target c (Completed m plan c.world.files hall)) fun _ _ => False := by
  obtain ⟨hrecords, htarget, hloaded⟩ := h
  dsimp only at htarget hloaded
  split
  · replace hloaded := (hloaded.resolve_left (by decide)).2
    split
    · rename_i hrun
      refine (transactPhase_ensures hclose m hrun hsettings htarget hrecords).mono ?_ fun _ _ h => h
      rintro ⟨e | code, hall'⟩ c'' ⟨hrecords', htarget', hout⟩
      · exact ⟨hrecords', htarget', hout⟩
      · refine ⟨hrecords', htarget', hout.imp_right fun ⟨h, htransacts⟩ => ?_⟩
        exact ⟨h, loaded, hloaded, by rwa [if_pos hrun]⟩
    · rename_i hrun
      exact Step.ensures_pure.mpr ⟨hrecords, htarget, Or.inr ⟨rfl, loaded, hloaded, by rw [if_neg hrun]⟩⟩
  · rename_i hne
    refine Step.ensures_pure.mpr ⟨hrecords, htarget, ?_⟩
    rcases r with e | code
    · exact hloaded
    · exact hloaded.imp_right fun h => absurd (congrArg Except.ok h.1) hne

/-- The phases that were asked for give one, or zero if each was completed, or an error that nothing handles for
what the plan or the corpus is. -/
theorem phases_ensures (m : Surroundings)
    (hsettings : Settings.ofProperties props = (.ok plan.settings, warnings))
    (htarget : hall.documents.target? = target) (c : Course) :
    (phases m plan hall).Ensures c
      (Phased m plan target c (Completed m plan c.world.files hall)) fun _ _ => False := by
  unfold phases
  dsimp only
  split
  · rename_i hload
    refine (loadPhase_ensures hclose m hload htarget c).bind ?_ fun _ _ h => h
    rintro ⟨r, loaded⟩ c' ⟨hrecords, htarget', hloaded⟩
    refine afterLoading_ensures hclose m hsettings ⟨hrecords, htarget', ?_⟩
    rcases r with e | code
    · exact hloaded
    · dsimp only at hloaded ⊢
      rwa [if_pos hload]
  · rename_i hload
    refine afterLoading_ensures hclose m hsettings (r := .ok 0) ⟨.refl c, htarget, Or.inr ⟨rfl, ?_⟩⟩
    dsimp only
    rw [if_neg hload]

end

end Program

end GeoWorkload
