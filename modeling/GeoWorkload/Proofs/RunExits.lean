import GeoWorkload.Proofs.PhaseExits
import GeoWorkload.Proofs.PlanExits

/-!
# How a run ends

A run with an accepted command line whose counters are in memory ends with the code zero only after every phase
that was asked for was completed; otherwise it ends with the code one, with a refusal, or with an error that nothing
handles, for which `Program.Flaw` lists every cause (`Program.run_explained`).
-/

namespace GeoWorkload

namespace CounterStore

/-- Why the counters of a workload cannot be put into memory. -/
inductive SeedFlaw (S : Schema) (total start : Int) : Failure → Prop
  /-- What the schema gives as the key of a counter is none. -/
  | key {key : Label} {fault : LabelFault} (hkey : key ∈ [S.totalKey, S.insertKey, S.storedKey])
      (h : key.keyFault? = some fault) : SeedFlaw S total start (.label fault)
  /-- A counter has too many digits. -/
  | number (h : ¬ Numeral.IsWritable total ∨ ¬ Numeral.IsWritable (total + 1 + start)) :
      SeedFlaw S total start (.number .unwritable)

theorem addInteger_faults (key : Label) (z : Int) (s : MemoryStore) :
    (addInteger key z : Action MemoryStore Unit).Ensures s (fun _ _ => True) fun f _ =>
      (∃ fault, key.keyFault? = some fault ∧ f = .label fault) ∨
        ¬ Numeral.IsWritable z ∧ f = .number .unwritable := by
  unfold addInteger Action.ofNumber
  rcases Numeral.writeInteger_cases z with ⟨_, hwrite⟩ | ⟨hz, hwrite⟩
  · rw [hwrite]
    refine (Action.ends_ofExcept _).bind_ensures ?_
    have hadd : (CounterStore.add key (Numeral.decimal z) : Action MemoryStore Bool).Ensures s (fun _ _ => True)
        fun f _ => ∃ fault, key.keyFault? = some fault ∧ f = .label fault := by
      show (MemoryStore.under key _).Ensures _ _ _
      unfold MemoryStore.under
      split
      · rename_i fault hkey
        exact Action.ensures_fail.mpr ⟨fault, hkey, rfl⟩
      · exact Action.ensures_step.mpr trivial
    exact hadd.bind (fun _ _ _ => Action.ensures_pure.mpr trivial) fun _ _ h => Or.inl h
  · rw [hwrite]
    exact (Action.ends_ofExcept _).bind_error.ensures (Or.inr ⟨hz, rfl⟩)

theorem SeedFlaw.of_fault {S : Schema} {total start : Int} {key : Label} {z : Int} {f : Failure}
    (hkey : key ∈ [S.totalKey, S.insertKey, S.storedKey])
    (hz : ¬ Numeral.IsWritable z → ¬ Numeral.IsWritable total ∨ ¬ Numeral.IsWritable (total + 1 + start))
    (h : (∃ fault, key.keyFault? = some fault ∧ f = .label fault) ∨
      ¬ Numeral.IsWritable z ∧ f = .number .unwritable) : SeedFlaw S total start f := by
  rcases h with ⟨fault, hfault, rfl⟩ | ⟨hlong, rfl⟩
  · exact .key hkey hfault
  · exact .number (hz hlong)

theorem seedCounters_faults (S : Schema) (total start : Int) (s : MemoryStore) :
    (seedCounters S total start : Action MemoryStore Unit).Ensures s (fun _ _ => True)
      fun f _ => SeedFlaw S total start f := by
  have hzero : Numeral.IsWritable 0 := Numeral.isWritable_of_natAbs_lt (by decide)
  unfold seedCounters
  refine (addInteger_faults _ _ s).bind (fun _ s _ => ?_) fun _ _ h => .of_fault (by simp) Or.inl h
  refine (addInteger_faults _ _ s).bind (fun _ s _ => ?_) fun _ _ h => .of_fault (by simp) Or.inr h
  exact (addInteger_faults _ _ s).mono (fun _ _ h => h) fun _ _ h =>
    .of_fault (by simp) (fun hlong => absurd hzero hlong) h

end CounterStore

namespace Program

section

variable (m : Surroundings) (a : Arguments) (world : World)

/-- The run has made a plan. -/
def Planned (plan : Plan) (c : Course) : Prop := (Plan.make m a).run.run { world } = (.ok plan, c)

/-- The run has made a plan and has put the counters of the workload into memory. -/
def Prepared (plan : Plan) (s : MemoryStore) (c : Course) : Prop :=
  ∃ c', Planned m a world plan c' ∧ (prepare m plan (pure ()) MemoryStore.empty).run.run c' = (.ok s, c)

/-- The run has made a plan, has put the counters into memory and has opened what the trace goes to. -/
def Started (plan : Plan) (hall : Hall MemoryStore) (path : Option Path) (c : Course) : Prop :=
  ∃ c', Prepared m a world plan hall.counters c' ∧
    (openTrace m plan.configuration.output).run.run c' = (.ok (hall.documents, path), c)

/-- Why a run ends with an error that nothing handles. -/
inductive Flaw : Escape → Prop
  /-- No plan comes about. -/
  | plan {e : Escape} (h : Plan.Flaw m a world e) : Flaw e
  /-- The counters cannot be put into memory. -/
  | seed {plan : Plan} {c : Course} {f : Failure} (hplan : Planned m a world plan c)
      (h : CounterStore.SeedFlaw plan.schema plan.settings.totalDocuments plan.settings.insertStart f) :
      Flaw (.failure f)
  /-- The file of the trace cannot be opened. -/
  | trace {plan : Plan} {s : MemoryStore} {c : Course} {name : String} {fault : FileFault}
      (hprepared : Prepared m a world plan s c) (houtput : plan.configuration.output = .string name)
      (h : c.world.files.Shut m.homes name fault) : Flaw (.file fault)
  /-- The file of the trace is named by a value that is no text. -/
  | output {plan : Plan} {s : MemoryStore} {c : Course} (hprepared : Prepared m a world plan s c)
      (h : ∀ name, plan.configuration.output ≠ .string name) :
      Flaw (.failure (.noStream plan.configuration.output.kind))
  /-- The plan or the corpus does not do for the phases. -/
  | phase {plan : Plan} {hall : Hall MemoryStore} {path : Option Path} {c : Course} {e : Escape}
      (hstarted : Started m a world plan hall path c) (h : plan.PhaseFlaw m c.world.files e) : Flaw e

end

variable {m : Surroundings} {a : Arguments} {world : World} {plan : Plan} {c : Course} {s : MemoryStore}

theorem prepare_advances (hplan : Planned m a world plan c) :
    (prepare m plan (pure ()) MemoryStore.empty).Advances c
      (fun s c' => Prepared m a world plan s c') (Flaw m a world) := by
  have hready : (pure () : Action MemoryStore Unit).Ensures MemoryStore.empty (fun _ _ => True) fun f _ =>
      CounterStore.SeedFlaw plan.schema plan.settings.totalDocuments plan.settings.insertStart f :=
    Action.ensures_pure.mpr trivial
  have hseed := hready.bind (fun _ s _ => CounterStore.seedCounters_faults plan.schema
    plan.settings.totalDocuments plan.settings.insertStart s) fun _ _ h => h
  have hprepare : (prepare m plan (pure ()) MemoryStore.empty).Advances c (fun _ _ => True) (Flaw m a world) := by
    unfold prepare
    dsimp only
    refine (perform_ensures m hseed).advances.bind ?_
    rintro ⟨f | _, s⟩ c' ⟨_, hf⟩
    · dsimp only at hf ⊢
      split
      · exact Step.advances_log_bind fun _ _ => Step.advances_quit .one
      · exact Step.advances_quit (.escaped (.seed hplan hf))
    · exact Step.advances_pure trivial
  exact hprepare.run.mono (fun s c' h => ⟨c, hplan, h.1⟩) fun _ h => h

theorem openTrace_advances (hprepared : Prepared m a world plan s c) :
    (openTrace m plan.configuration.output).Advances c
      (fun out c' => Started m a world plan ⟨s, out.1⟩ out.2 c' ∧
        (∀ kind, out.1.target? = some kind → Flaw m a world (.failure (.noStream kind))) ∧
        ∀ p, out.2 = some p → c'.world.files.Leads p) (Flaw m a world) := by
  have hopen : (openTrace m plan.configuration.output).Advances c
      (fun out c' => (∀ kind, out.1.target? = some kind → Flaw m a world (.failure (.noStream kind))) ∧
        ∀ p, out.2 = some p → c'.world.files.Leads p) (Flaw m a world) := by
    unfold openTrace
    split
    · rename_i name houtput
      refine Step.advances_open_bind (fun _ h => .trace hprepared houtput h) fun p c' _ hleads => ?_
      refine Step.advances_pure ⟨fun _ h => (by cases h), fun q hq => ?_⟩
      cases hq
      exact hleads
    · rename_i houtput
      refine Step.advances_pure ⟨fun kind hkind => ?_, fun _ h => by cases h⟩
      cases hkind
      exact .output hprepared houtput
  exact hopen.run.mono (fun out c' h => ⟨⟨c, hprepared, h.1⟩, h.2⟩) fun _ h => h

theorem closeTrace_advances {documents : DocumentStore} {path : Option Path} {flaw : Escape → Prop}
    (hkind : ∀ kind, documents.target? = some kind → flaw (.failure (.noStream kind)))
    (hleads : ∀ p, path = some p → c.world.files.Leads p) :
    (closeTrace documents path).Advances c (fun _ _ => True) flaw := by
  unfold closeTrace
  split
  · exact Step.advances_quit (.escaped (hkind _ rfl))
  · rename_i t p
    obtain ⟨fs, happend⟩ := FileChange.append_of_leads (hleads p rfl) t.text.toUTF8
    refine Step.ensures_change (fun _ _ => trivial) fun fault fs' h => ?_
    rw [happend] at h
    cases h
  · exact Step.advances_pure trivial

/-- Every phase that was asked for was completed. -/
def Succeeds [Powers] (m : Surroundings) (a : Arguments) (world : World) : Prop :=
  ∃ plan hall path c hall', Started m a world plan hall path c ∧ Completed m plan c.world.files hall hall'

theorem work_advances [Powers] (hprepared : Prepared m a world plan s c) (hplan : Plan.Suits m a world plan) :
    (work m plan s).Advances c (fun code _ => code = 1 ∨ code = 0 ∧ Succeeds m a world) (Flaw m a world) := by
  obtain ⟨warnings, hsettings⟩ := hplan.settings
  unfold work
  refine (openTrace_advances hprepared).bind ?_
  rintro ⟨documents, path⟩ c₁ ⟨hstarted, hkind, hleads⟩
  refine (phases_ensures MemoryStore.closes m hsettings rfl c₁).advances.bind ?_
  rintro ⟨r, hall⟩ c₂ ⟨hrecords, htarget, hr⟩
  dsimp only at htarget
  refine (closeTrace_advances (fun kind h => hkind kind (htarget ▸ h))
    fun p hp => hrecords.leads p (hleads p hp)).bind fun _ c₃ _ => ?_
  refine (perform_ensures m (MemoryStore.closes hall.counters)).advances.bind ?_
  rintro ⟨f | _, s'⟩ c₄ ⟨_, hclosing⟩
  · exact hclosing.elim
  refine Step.advances_ofExcept_bind (fun _ h => by cases h) fun _ _ => ?_
  have hcode : (Step.ofExcept r).Advances c₄ (fun code _ => code = 1 ∨ code = 0 ∧ Succeeds m a world)
      (Flaw m a world) := by
    refine Step.ensures_ofExcept (fun code h => ?_) fun e h => ?_
    · subst h
      exact hr.imp_right fun ⟨hcode, hdone⟩ => ⟨hcode, plan, _, path, c₁, hall, hstarted, hdone⟩
    · subst h
      obtain ⟨e', rfl, hflaw⟩ := hr
      exact .escaped (.phase hstarted hflaw)
  exact hcode.bind fun code _ h => Step.advances_log_bind fun _ _ => Step.advances_pure h

/-- A run whose counters are kept in memory gives zero only if every phase that was asked for was completed;
otherwise it gives one, refuses to go on, or ends with an error that nothing handles for a flaw. -/
theorem run_explained [Powers] (m : Surroundings) {args : List String} {a : Arguments} (world : World)
    (ha : Arguments.ofList args = .ok a)
    (hmemory : ∀ plan c, Planned m a world plan c → plan.backend = .memory) :
    (run m args world).exit.Explained (Succeeds m a world) (Flaw m a world) := by
  have hsteps : (steps m args).Advances { world } (fun code _ => code = 1 ∨ code = 0 ∧ Succeeds m a world)
      (Flaw m a world) := by
    unfold steps
    rw [ha]
    refine (Plan.make_advances.run.mono (fun _ _ h => h) fun _ h => .plan h).bind ?_
    rintro plan c ⟨hplanned, hsuits⟩
    unfold carryOut
    rw [hmemory plan c hplanned]
    dsimp only
    exact (prepare_advances hplanned).bind fun s c' hprepared => work_advances hprepared hsuits
  unfold run
  rcases hrun : (steps m args).run.run { world } with ⟨e | code, c⟩
  · exact (hsteps.of_run_error hrun).mono False.elim fun _ h => h
  · rcases hsteps.of_run hrun with rfl | ⟨rfl, hdone⟩
    · exact .one
    · exact .zero hdone

theorem backend_of_planned {backend : Backend} (hplan : Planned m a world plan c)
    (h : ((Plan.make m a).run.run { world }).1.map (·.backend) = .ok backend) : plan.backend = backend := by
  unfold Planned at hplan
  rw [hplan] at h
  exact Except.ok.inj h

/-- Surroundings in which any time is over at once. -/
def hurried : Surroundings where
  homes _ := none
  stamp := "s"
  lineStamp := "t"
  elapsed := "0.0"
  moment := 0
  isOver _ _ := true

/-- The world that holds nothing but a configuration file with the given text. -/
def configured (text : String) : World := { files := ({} : Files).put ⟨false, ["c.json"]⟩ (.file text.toUTF8) }

/-- A command line that asks for scans without end, but for a second at most. -/
def scanLine : List String := [
  "--run", "--config", "c.json", "--output", "t.jsonl", "--operations", "0", "--duration", "1",
  "-p", "geo_scan=1", "--log-file", "geo.log"]

/-- What the command line gives. -/
def scanArguments : Arguments where
  run := true
  config := .string "c.json"
  output := .string "t.jsonl"
  operations := .int 0
  duration := .float 1
  properties := .array [.array [.string "geo_scan", .string "1"]]
  logFile := .string "geo.log"

theorem run_explained_hurried :
    Arguments.ofList scanLine = .ok scanArguments ∧
      (∀ plan c, Planned hurried scanArguments (configured "\x7b\x7d") plan c → plan.backend = .memory) ∧
      (run hurried scanLine (configured "\x7b\x7d")).exit = .code 0 ∧
      (run hurried scanLine (configured "\x7b\x7d")).exit.Explained
        (Succeeds hurried scanArguments (configured "\x7b\x7d"))
        (Flaw hurried scanArguments (configured "\x7b\x7d")) := by
  have hline : Arguments.ofList scanLine = .ok scanArguments := by decide +kernel
  have hmemory : ∀ plan c, Planned hurried scanArguments (configured "\x7b\x7d") plan c →
      plan.backend = .memory := fun _ _ hplan => backend_of_planned hplan (by decide +kernel)
  exact ⟨hline, hmemory, by decide +kernel, run_explained hurried (configured "\x7b\x7d") hline hmemory⟩

/-- A number of workers that is given as a text ends the run with an error that nothing handles, though the
configuration file is a JSON object and the log and the trace can be written. -/
theorem run_escapes_wordyWorkers :
    (run hurried ["--run", "--config", "c.json", "--log-file", "geo.log"]
      (configured "\x7b\"run\":\x7b\"workers\":\"two\",\"output\":\"t.jsonl\"\x7d\x7d")).exit =
        .escaped (.failure .wrongKind) := by
  decide +kernel

end Program

end GeoWorkload
