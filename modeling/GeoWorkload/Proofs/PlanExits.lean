import GeoWorkload.Proofs.RunSteps

/-!
# What making a plan leads to

A plan comes about, or the run ends with the code one, with a refusal, or with an error that nothing handles; the
last only for one of the causes that `Plan.Flaw` lists (`Plan.make_advances`).
-/

namespace GeoWorkload

/-- What an exit stands for: zero for `done`, one and a refusal for themselves, and an error that nothing handles
for a flaw. -/
inductive Exit.Explained (done : Prop) (flaw : Escape → Prop) : Exit → Prop
  | zero (h : done) : Explained done flaw (.code 0)
  | one : Explained done flaw (.code 1)
  | refused (refusal : Refusal) : Explained done flaw (.refused refusal)
  | escaped {e : Escape} (h : flaw e) : Explained done flaw (.escaped e)

theorem Exit.Explained.mono {done done' : Prop} {flaw flaw' : Escape → Prop} {e : Exit} (h : e.Explained done flaw)
    (hdone : done → done') (hflaw : ∀ e, flaw e → flaw' e) : e.Explained done' flaw' := by
  cases h with
  | zero h => exact .zero (hdone h)
  | one => exact .one
  | refused r => exact .refused r
  | escaped h => exact .escaped (hflaw _ h)

/-- A computation gives a value, or it ends a run with one, with a refusal or for a flaw. -/
def Exit.Yields {α : Type} (r : Except Exit α) (flaw : Escape → Prop) : Prop :=
  ∀ e, r = .error e → e.Explained False flaw

section Yields

variable {α β : Type} {r : Except Exit α} {flaw : Escape → Prop}

theorem Exit.Yields.bind {f : α → Except Exit β} (h : Yields r flaw) (hf : ∀ a, Yields (f a) flaw) :
    Yields (r >>= f) flaw := by
  intro e he
  rcases error_of_bind_eq_error he with he | ⟨a, _, he⟩
  · exact h e he
  · exact hf a e he

theorem Exit.Yields.map {g : α → β} (h : Yields r flaw) : Yields (g <$> r) flaw := by
  cases r with
  | ok a => exact fun _ he => by cases he
  | error e =>
    intro e' he'
    cases he'
    exact h e rfl

theorem Exit.yields_ok {a : α} : Yields (.ok a) flaw := fun _ he => by cases he

theorem Exit.yields_refused {refusal : Refusal} : Yields (.error (.refused refusal) : Except Exit α) flaw := by
  intro e he
  cases he
  exact .refused refusal

/-- Where a refusal ends the run, that accounts for it. -/
theorem Exit.yields_ite_refused {p : Prop} [Decidable p] {refusal : Refusal} {f : β → Except Exit α}
    {y : Except Exit α} (h : Yields y flaw) :
    Yields (if p then throw (.refused refusal) >>= f else y) flaw := by
  split
  · exact yields_refused
  · exact h

end Yields

namespace Step

variable {α β : Type} {x : Step α} {c : Course} {ok : α → Course → Prop} {flaw flaw' : Escape → Prop}

/-- In the course `c` the step gives a value with `ok`, or it ends the run with one, with a refusal or for a
flaw. -/
def Advances (x : Step α) (c : Course) (ok : α → Course → Prop) (flaw : Escape → Prop) : Prop :=
  x.Ensures c ok fun e _ => e.Explained False flaw

theorem Advances.bind {f : α → Step β} {ok' : β → Course → Prop} (h : x.Advances c ok flaw)
    (hf : ∀ a c', ok a c' → (f a).Advances c' ok' flaw) : (x >>= f).Advances c ok' flaw :=
  Ensures.bind h hf fun _ _ h => h

/-- What is known of a step that is sure to give a value. -/
theorem Ensures.advances (h : x.Ensures c ok fun _ _ => False) : x.Advances c ok flaw :=
  h.mono (fun _ _ h => h) fun _ _ h => h.elim

theorem Advances.mono {ok' : α → Course → Prop} (h : x.Advances c ok flaw) (hok : ∀ a c', ok a c' → ok' a c')
    (hflaw : ∀ e, flaw e → flaw' e) : x.Advances c ok' flaw' :=
  Ensures.mono h hok fun _ _ h => h.mono id hflaw

/-- A step that gives a value has done so from where it started. -/
theorem Advances.run (h : x.Advances c ok flaw) :
    x.Advances c (fun a c' => x.run.run c = (.ok a, c') ∧ ok a c') flaw :=
  ((ensures_run x c).and h).mono (fun _ _ h => h) fun _ _ h => h.2

theorem advances_pure {a : α} (h : ok a c) : (pure a : Step α).Advances c ok flaw := ensures_pure.mpr h

theorem advances_quit {e : Exit} (h : e.Explained False flaw) : (quit e : Step α).Advances c ok flaw :=
  ensures_quit.mpr h

theorem advances_log_bind {m : Surroundings} {level : LogLevel} {text : String} {f : Unit → Step β}
    {ok : β → Course → Prop} (h : ∀ c', c.Records c' → (f ()).Advances c' ok flaw) :
    (log m level text >>= f).Advances c ok flaw :=
  (ensures_log m level text c).advances.bind fun _ c' hc' => h c' hc'

/-- A record that is made on a condition makes no difference to what follows. -/
theorem advances_ite_log_bind {p : Prop} [Decidable p] {m : Surroundings} {level : LogLevel} {text : String}
    {y : Step β} {ok : β → Course → Prop} (h : ∀ c', c.Records c' → y.Advances c' ok flaw) :
    (if p then log m level text >>= fun _ => y else y).Advances c ok flaw := by
  split
  · exact advances_log_bind h
  · exact h c (.refl c)

theorem advances_logAll_bind {m : Surroundings} {records : List LogRecord} {f : Unit → Step β}
    {ok : β → Course → Prop} (h : ∀ c', c.Records c' → (f ()).Advances c' ok flaw) :
    (logAll m records >>= f).Advances c ok flaw :=
  (ensures_logAll m records c).advances.bind fun _ c' hc' => h c' hc'

theorem advances_ofExcept {r : Except Exit α} (h : Exit.Yields r flaw) :
    (ofExcept r).Advances c (fun _ c' => c' = c) flaw :=
  ensures_ofExcept (fun _ _ => rfl) h

/-- An error ends the run, so it has to be accounted for; a value is gone on with. -/
theorem advances_ofExcept_bind {ε : Type} {r : Except ε α} {g : ε → Exit} {f : α → Step β}
    {ok : β → Course → Prop} (herror : ∀ e, r = .error e → (g e).Explained False flaw)
    (hok : ∀ a, r = .ok a → (f a).Advances c ok flaw) :
    (ofExcept (r.mapError g) >>= f).Advances c ok flaw := by
  have hr : (ofExcept (r.mapError g)).Advances c (fun a c' => r = .ok a ∧ c' = c) flaw := by
    refine ensures_ofExcept (fun a ha => ⟨of_mapError_eq_ok ha, rfl⟩) fun e he => ?_
    obtain ⟨e', he', rfl⟩ := exists_of_mapError he
    exact herror e' he'
  refine hr.bind ?_
  rintro a _ ⟨ha, rfl⟩
  exact hok a ha

end Step

/-- The file that a text names cannot be opened for adding to it. -/
def Files.Shut (fs : Files) (homes : Homes) (name : String) (fault : FileFault) : Prop :=
  pathOf homes name = .error fault ∨
    ∃ p fs', pathOf homes name = .ok p ∧ (FileChange.openToAppend p).run.run fs = (.error fault, fs')

/-- A step goes on with a file that it has opened for adding to it, unless the file is shut. -/
theorem Step.advances_open_bind {β : Type} {m : Surroundings} {name : String} {f : Path → Step β} {c : Course}
    {ok : β → Course → Prop} {flaw : Escape → Prop}
    (hshut : ∀ fault, c.world.files.Shut m.homes name fault → flaw (.file fault))
    (hopen : ∀ p c', c'.world.registry = c.world.registry → c'.world.files.Leads p →
      (f p).Advances c' ok flaw) :
    (path m name >>= fun p => change (FileChange.openToAppend p) >>= fun _ => f p).Advances c ok flaw := by
  have hpath : (path m name).Advances c (fun p c' => Files.pathOf m.homes name = .ok p ∧ c' = c) flaw :=
    ensures_path (fun p hp => ⟨hp, rfl⟩) fun fault h => .escaped (hshut fault (.inl h))
  refine hpath.bind ?_
  rintro p c ⟨hp, rfl⟩
  have hchange : (change (FileChange.openToAppend p)).Advances c
      (fun _ c' => c'.world.registry = c.world.registry ∧ c'.world.files.Leads p) flaw :=
    ensures_change (fun _ h => ⟨rfl, FileChange.leads_of_openToAppend h⟩)
      fun fault fs h => .escaped (hshut fault (.inr ⟨p, fs, hp, h⟩))
  exact hchange.bind fun _ c' ⟨hregistry, hleads⟩ => hopen p c' hregistry hleads

namespace Plan

variable (m : Surroundings) (a : Arguments) (world : World)

/-- The run has opened its log. -/
def Opened (c : Course) : Prop := (openLog m a).run.run { world } = (.ok (), c)

/-- The run has opened its log and has read the configuration file. -/
def Reads (file : ConfigurationFile) : Prop :=
  ∃ c, Opened m a world c ∧ ConfigurationFile.read c.world.files m.homes a.configName = .ok file

/-- The run goes by the configuration. -/
def Configured (c : Configuration) : Prop :=
  ∃ file notices, Reads m a world file ∧
    (Configuration.resolve a file.members m.environment).run {} = .ok (c, notices)

/-- Why no plan comes about and the run ends with an error that nothing handles. -/
inductive Flaw : Escape → Prop
  /-- The option for the log level was given nothing. -/
  | level (h : a.logLevel = none) : Flaw .levelMissing
  /-- The log cannot be opened. -/
  | log {fault : FileFault} (h : world.files.Shut m.homes (logName m a) fault) : Flaw (.file fault)
  /-- The configuration file is there and cannot be read, or holds a number with too many digits. -/
  | unread {c : Course} {fault : ConfigurationFileFault} (hopen : Opened m a world c)
      (h : ConfigurationFile.read c.world.files m.homes a.configName = .error fault)
      (hrefused : fault.isRefused = false) : Flaw (.configurationFile fault)
  /-- A section of the configuration, a property or a variable cannot be used. -/
  | unresolved {file : ConfigurationFile} {fault : ConfigurationFault} (hread : Reads m a world file)
      (h : (Configuration.resolve a file.members m.environment).run {} = .error fault) : Flaw (.configuration fault)
  /-- The workers, the operations or the duration are given by a value that is no number. -/
  | limit {c : Configuration} {v : Json.Value} (hc : Configured m a world c)
      (hv : v ∈ [c.workers, c.operations, c.duration]) (hgiven : v ≠ .null) (h : Amount.ofValue? v = none) :
      Flaw (.failure .wrongKind)
  /-- The schema is defined by values of the wrong kinds. -/
  | schema {c : Configuration} {settings : Settings} {warnings : List LogRecord} {e : SchemaError}
      (hc : Configured m a world c) (hsettings : Settings.ofProperties c.properties.named = (.ok settings, warnings))
      (h : (schemaOf c.schemaBlock settings.schemaName world.registry).1 = .error e)
      (hcontent : e.isOfContent = false) : Flaw (.schema e)

/-- The plan is one for the command line, with the configuration that the run goes by. -/
structure Suits (plan : Plan) : Prop where
  arguments : plan.arguments = a
  configured : Configured m a world plan.configuration
  settings : ∃ warnings, Settings.ofProperties plan.configuration.properties.named = (.ok plan.settings, warnings)

variable {m a world} {c : Configuration} {course : Course}

theorem openLog_advances : (openLog m a).Advances { world }
    (fun _ course => Opened m a world course ∧ course.world.registry = world.registry) (Flaw m a world) := by
  refine Step.Advances.run ?_
  unfold openLog
  rcases hlevel : a.logLevel with _ | least
  · exact Step.advances_quit (.escaped (.level hlevel))
  · refine Step.advances_open_bind (fun _ h => .log h) fun p course hregistry _ => ?_
    have hmodify : (modify fun c => { c with logFile := some p, least } : Step PUnit).Advances course
        (fun _ course => course.world.registry = world.registry) (Flaw m a world) :=
      Step.ensures_modify hregistry
    refine hmodify.bind fun _ course hregistry => ?_
    exact (Step.ensures_log m _ _ course).advances.mono (fun _ _ h => h.registry.trans hregistry) fun _ h => h

theorem readConfiguration_advances (hopen : Opened m a world course) :
    (readConfiguration m a).Advances course
      (fun out course' => Configured m a world out.2 ∧ course'.world.registry = course.world.registry)
      (Flaw m a world) := by
  unfold readConfiguration
  refine Step.Advances.bind Step.ensures_files.advances ?_
  rintro _ _ ⟨rfl, rfl⟩
  refine Step.advances_ofExcept_bind (fun fault hfault => ?_) fun file hfile => ?_
  · unfold Exit.ofConfigurationFile
    split
    · exact .refused _
    · rename_i hrefused
      exact .escaped (.unread hopen hfault (by simpa using hrefused))
  · refine Step.advances_ofExcept_bind (fun fault hfault => .escaped (.unresolved ⟨_, hopen, hfile⟩ hfault)) ?_
    rintro ⟨c, notices⟩ hc
    have hconfigured : Configured m a world c := ⟨file, notices, ⟨_, hopen, hfile⟩, hc⟩
    refine Step.advances_ite_log_bind fun course₁ h₁ => Step.advances_ite_log_bind fun course₂ h₂ => ?_
    exact Step.advances_pure ⟨hconfigured, (h₁.trans h₂).registry⟩

theorem amount_yields {least : Int} {refusal : String → Refusal} {v : Json.Value}
    (hc : Configured m a world c) (hv : v ∈ [c.workers, c.operations, c.duration]) :
    Exit.Yields (amount least refusal v) (Flaw m a world) := by
  unfold amount
  split
  · exact Exit.yields_refused
  · rename_i hgiven
    split
    · rename_i hnone
      intro e he
      cases he
      exact .escaped (.limit hc hv hgiven hnone)
    · split
      · exact Exit.yields_refused
      · exact Exit.yields_ok

theorem check_yields (hc : Configured m a world c) : Exit.Yields (check a c) (Flaw m a world) := by
  unfold check
  split
  · refine Exit.yields_ite_refused <| Exit.yields_ite_refused <| Exit.yields_ite_refused ?_
    refine (amount_yields hc (by simp)).bind fun workers => ?_
    refine (amount_yields hc (by simp)).bind fun operations => ?_
    dsimp only
    split
    · exact Exit.yields_ok
    · exact (amount_yields hc (by simp)).map.bind fun duration => Exit.yields_ok
  · exact Exit.yields_refused

theorem readSettings_advances (source : String) :
    (readSettings m source c).Advances course
      (fun settings course' => course.Records course' ∧
        ∃ warnings, Settings.ofProperties c.properties.named = (.ok settings, warnings)) (Flaw m a world) := by
  unfold readSettings
  rcases hsettings : Settings.ofProperties c.properties.named with ⟨settings, warnings⟩
  refine Step.advances_logAll_bind fun course' h' => ?_
  cases settings with
  | ok settings => exact Step.advances_pure ⟨h', warnings, rfl⟩
  | error e => exact Step.advances_log_bind fun _ _ => Step.advances_quit .one

theorem readSchema_advances (source : String) {settings : Settings} {warnings : List LogRecord}
    (hc : Configured m a world c) (hsettings : Settings.ofProperties c.properties.named = (.ok settings, warnings))
    (hregistry : course.world.registry = world.registry) :
    (readSchema m source c settings).Advances course (fun _ _ => True) (Flaw m a world) := by
  unfold readSchema
  refine Step.Advances.bind Step.ensures_get.advances ?_
  rintro _ course ⟨rfl, rfl⟩
  dsimp only
  rw [hregistry]
  rcases hschema : schemaOf c.schemaBlock settings.schemaName world.registry with ⟨schema, registry⟩
  refine Step.Advances.bind (Step.ensures_modify trivial) fun _ course' (_ : True) => ?_
  cases schema with
  | ok schema => exact Step.advances_pure trivial
  | error e =>
    dsimp only
    split
    · exact Step.advances_log_bind fun _ _ => Step.advances_quit .one
    · rename_i hcontent
      exact Step.advances_quit (.escaped (.schema hc hsettings (by rw [hschema]) (by simpa using hcontent)))

/-- Making a plan gives one, or it ends the run with one, with a refusal or for a flaw. -/
theorem make_advances : (make m a).Advances { world } (fun plan _ => Suits m a world plan) (Flaw m a world) := by
  unfold make
  refine openLog_advances.bind fun _ course ⟨hopen, hregistry⟩ => ?_
  refine (readConfiguration_advances hopen).bind ?_
  rintro ⟨source, c⟩ course' ⟨hc, hkept⟩
  refine (Step.advances_ofExcept (check_yields hc)).bind ?_
  rintro ⟨backend, limits⟩ _ rfl
  refine (readSettings_advances source).bind ?_
  rintro settings course'' ⟨hrecords, warnings, hsettings⟩
  refine (readSchema_advances source hc hsettings ?_).bind fun schema _ _ => ?_
  · rw [hrecords.registry, hkept, hregistry]
  · exact Step.advances_log_bind fun _ _ => Step.advances_pure ⟨rfl, hc, warnings, hsettings⟩

end Plan

end GeoWorkload
