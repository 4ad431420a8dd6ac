import GeoWorkload.Generator.Compile
import GeoWorkload.Proofs.StoreLaws

/-!
# Generators at a memory

What an action at a site does to the memory behind the store, the generator staying as it is but for what
it drew and read (`Works`).  `Harmless` actions leave the memory as it was, however they end: reading the
document counts, drawing, loading a body.
-/

namespace GeoWorkload.Generator

/-- The generators have the same settings, schema and flag; they may have drawn and read differently. -/
structure Alike (g g' : Generator) : Prop where
  settings : g'.settings = g.settings
  schema : g'.schema = g.schema
  flag : g'.allInitialized = g.allInitialized

theorem Alike.refl (g : Generator) : g.Alike g := ⟨rfl, rfl, rfl⟩

variable {σ α β : Type} [CounterStore σ] [MemoryBacked σ]

/-- A generator like `g` is at a store with the memory `m`. -/
structure Site.Holds (g : Generator) (m : MemoryStore) (site : Site σ) : Prop where
  alike : g.Alike site.generator
  memory : MemoryBacked.memory site.counters = m

theorem Site.holds_self (site : Site σ) :
    site.Holds site.generator (MemoryBacked.memory site.counters) :=
  ⟨.refl _, rfl⟩

/-- At a store with the memory `m` the action of a generator like `g` gives a value with `ok`, or it fails
with `failed`, and the generator is like `g` afterwards. -/
def Works (g : Generator) (m : MemoryStore) (x : Action (Site σ) α) (ok : α → MemoryStore → Prop)
    (failed : Failure → MemoryStore → Prop) : Prop :=
  ∀ site, site.Holds g m → x.Ensures site (fun a site' => ∃ m', site'.Holds g m' ∧ ok a m')
    fun e site' => ∃ m', site'.Holds g m' ∧ failed e m'

open MemoryBacked Site

variable {g : Generator} {m : MemoryStore} {x : Action (Site σ) α} {ok ok' : α → MemoryStore → Prop}
  {failed failed' : Failure → MemoryStore → Prop}

/-! ### Rules -/

theorem Works.mono (h : Works g m x ok failed) (hok : ∀ a m', ok a m' → ok' a m')
    (hfailed : ∀ e m', failed e m' → failed' e m') : Works g m x ok' failed' := by
  intro site hsite
  refine (h site hsite).mono ?_ ?_
  · rintro a site' ⟨m', hsite', ha⟩
    exact ⟨m', hsite', hok a m' ha⟩
  · rintro e site' ⟨m', hsite', he⟩
    exact ⟨m', hsite', hfailed e m' he⟩

theorem works_pure {a : α} (h : ok a m) : Works g m (pure a : Action (Site σ) α) ok failed :=
  fun _ hsite => Action.ensures_pure.mpr ⟨m, hsite, h⟩

theorem works_fail {e : Failure} (h : failed e m) :
    Works g m (Action.fail e : Action (Site σ) α) ok failed :=
  fun _ hsite => Action.ensures_fail.mpr ⟨m, hsite, h⟩

theorem works_log {level : LogLevel} {text : String} {ok : Unit → MemoryStore → Prop} (h : ok () m) :
    Works g m (Action.log level text : Action (Site σ) Unit) ok failed :=
  fun _ hsite => Action.ensures_log.mpr ⟨m, hsite, h⟩

theorem works_logAll {records : List LogRecord} {ok : Unit → MemoryStore → Prop} (h : ok () m) :
    Works g m (Action.logAll records : Action (Site σ) Unit) ok failed :=
  fun _ hsite => Action.ensures_logAll.mpr ⟨m, hsite, h⟩

theorem works_ofExcept {r : Except Failure α} (hok : ∀ a, r = .ok a → ok a m)
    (hfailed : ∀ e, r = .error e → failed e m) :
    Works g m (Action.ofExcept r : Action (Site σ) α) ok failed :=
  fun _ hsite => Action.ensures_ofExcept.mpr
    ⟨fun a ha => ⟨m, hsite, hok a ha⟩, fun e he => ⟨m, hsite, hfailed e he⟩⟩

theorem Works.bind {f : α → Action (Site σ) β} {ok' : β → MemoryStore → Prop}
    (h : Works g m x ok failed) (hok : ∀ a m', ok a m' → Works g m' (f a) ok' failed')
    (hfailed : ∀ e m', failed e m' → failed' e m') : Works g m (x >>= f) ok' failed' := by
  intro site hsite
  refine (h site hsite).bind ?_ ?_
  · rintro a site' ⟨m', hsite', ha⟩
    exact hok a m' ha site' hsite'
  · rintro e site' ⟨m', hsite', he⟩
    exact ⟨m', hsite', hfailed e m' he⟩

/-- What follows an action may change the generator. -/
theorem Works.bind_ensures {f : α → Action (Site σ) β} {site : Site σ} {okSite : β → Site σ → Prop}
    (h : Works g m x ok failed) (hsite : site.Holds g m)
    (hok : ∀ a m' site', site'.Holds g m' → ok a m' → (f a).Ensures site' okSite
      fun e site'' => ∃ m'', site''.Holds g m'' ∧ failed' e m'')
    (hfailed : ∀ e m', failed e m' → failed' e m') :
    (x >>= f).Ensures site okSite fun e site' => ∃ m', site'.Holds g m' ∧ failed' e m' := by
  refine (h site hsite).bind ?_ ?_
  · rintro a site' ⟨m', hsite', ha⟩
    exact hok a m' site' hsite' ha
  · rintro e site' ⟨m', hsite', he⟩
    exact ⟨m', hsite', hfailed e m' he⟩

/-- What follows an action that leaves the memory as it was. -/
theorem Works.pass_ensures {f : α → Action (Site σ) β} {site : Site σ} {found : α → Prop}
    {okSite : β → Site σ → Prop} (h : Works g m x (fun a m' => found a ∧ m' = m) failed)
    (hsite : site.Holds g m) (hok : ∀ a site', site'.Holds g m → found a → (f a).Ensures site' okSite
      fun e site'' => ∃ m'', site''.Holds g m'' ∧ failed' e m'')
    (hfailed : ∀ e m', failed e m' → failed' e m') :
    (x >>= f).Ensures site okSite fun e site' => ∃ m', site'.Holds g m' ∧ failed' e m' := by
  refine h.bind_ensures hsite ?_ hfailed
  rintro a _ site' hsite' ⟨ha, rfl⟩
  exact hok a site' hsite' ha

/-- Looking at the generator shows one that is like `g`. -/
theorem works_look {f : Generator → α} (h : ∀ g', g.Alike g' → ok (f g') m) :
    Works g m (Action.look fun site : Site σ => f site.generator) ok failed :=
  fun _ hsite => Action.ensures_look.mpr ⟨m, hsite, h _ hsite.alike⟩

theorem works_ownSchema : Works g m (ownSchema : Action (Site σ) Schema)
    (fun S m' => S = g.schema ∧ m' = m) failed :=
  works_look fun _ h => ⟨h.schema, rfl⟩

theorem works_ownSchema_bind {f : Schema → Action (Site σ) α} (h : Works g m (f g.schema) ok failed) :
    Works g m (ownSchema >>= f) ok failed := by
  refine works_ownSchema.bind ?_ fun _ _ h => h
  rintro _ _ ⟨rfl, rfl⟩
  exact h

theorem works_onCounters {x : Action σ α} (h : ∀ s, memory s = m →
      x.Ensures s (fun a s' => ok a (memory s')) fun e s' => failed e (memory s')) :
    Works g m (onCounters x) ok failed := by
  intro site hsite
  refine Action.Ensures.within ((h _ hsite.memory).mono ?_ ?_)
  · exact fun a s' ha => ⟨_, ⟨hsite.alike, rfl⟩, ha⟩
  · exact fun e s' he => ⟨_, ⟨hsite.alike, rfl⟩, he⟩

theorem works_onSampler {x : Action Sampler α} {ok : α → Prop} {failed : Failure → Prop}
    (h : ∀ s, x.Ensures s (fun a _ => ok a) fun e _ => failed e) :
    Works g m (onSampler x : Action (Site σ) α) (fun a m' => m' = m ∧ ok a)
      fun e m' => m' = m ∧ failed e := by
  intro site hsite
  have hdrawn : ∀ sampler, Site.Holds g m
      { site with generator := { site.generator with sampler } } := fun sampler =>
    ⟨⟨hsite.alike.settings, hsite.alike.schema, hsite.alike.flag⟩, hsite.memory⟩
  unfold onSampler onGenerator
  refine Action.Ensures.within (Action.Ensures.within ((h _).mono ?_ ?_))
  · exact fun a sampler ha => ⟨m, hdrawn sampler, rfl, ha⟩
  · exact fun e sampler he => ⟨m, hdrawn sampler, rfl, he⟩

/-! ### Actions that leave the memory as it was -/

/-- However the action ends, the memory is what it was. -/
def Harmless (x : Action (Site σ) α) : Prop :=
  ∀ g m, g.schema.KeysDistinct → Works g m x (fun _ m' => m' = m) fun _ m' => m' = m

theorem harmless_pure (a : α) : Harmless (pure a : Action (Site σ) α) :=
  fun _ _ _ => works_pure rfl

theorem Harmless.bind {f : α → Action (Site σ) β} (hx : Harmless x) (hf : ∀ a, Harmless (f a)) :
    Harmless (x >>= f) := by
  intro g m hS
  refine (hx g m hS).bind ?_ fun _ _ h => h
  rintro a _ rfl
  exact hf a g _ hS

/-- What follows a harmless action starts where the action did. -/
theorem Harmless.works_bind {f : α → Action (Site σ) β} {ok : β → MemoryStore → Prop}
    (hx : Harmless x) (hS : g.schema.KeysDistinct) (hf : ∀ a, Works g m (f a) ok failed)
    (hfailed : ∀ e, failed e m) : Works g m (x >>= f) ok failed := by
  refine (hx g m hS).bind ?_ ?_
  · rintro a _ rfl
    exact hf a
  · rintro e _ rfl
    exact hfailed e

theorem harmless_log (level : LogLevel) (text : String) :
    Harmless (Action.log level text : Action (Site σ) Unit) :=
  fun _ _ _ => works_log rfl

/-- A change of the generator that leaves it like it was. -/
theorem harmless_change {f : Generator → Generator} (hf : ∀ g g', Alike g g' → Alike g (f g')) :
    Harmless (onGenerator (Action.change f) : Action (Site σ) Unit) :=
  fun g m _ _ hsite => Action.Ensures.within (Action.ensures_change.mpr
    ⟨m, ⟨hf g _ hsite.alike, hsite.memory⟩, rfl⟩)

theorem harmless_ofExcept (r : Except Failure α) : Harmless (Action.ofExcept r : Action (Site σ) α) :=
  fun _ _ _ => works_ofExcept (fun _ _ => rfl) fun _ _ => rfl

theorem harmless_ownSchema : Harmless (ownSchema : Action (Site σ) Schema) :=
  fun _ _ _ => works_look fun _ _ => rfl

theorem harmless_ofNumber (r : Except NumberError α) :
    Harmless (Action.ofNumber r : Action (Site σ) α) :=
  harmless_ofExcept _

theorem harmless_onSampler (x : Action Sampler α) : Harmless (onSampler x : Action (Site σ) α) := by
  intro g m _
  exact (works_onSampler fun s => Action.ensures_true).mono (fun _ _ h => h.1) fun _ _ h => h.1

/-! ### Reading counts and drawing -/

theorem works_get {key : Label} (hkey : key.IsText) :
    Works g m (onCounters (CounterStore.get key) : Action (Site σ) (Option String))
      (fun found m' => found = m.get? key ∧ m' = m) fun _ m' => m' = m := by
  refine works_onCounters fun s hs => ?_
  rw [← hs]
  exact (get_ensures hkey s).mono (fun _ _ h => h) fun _ _ h => h.1

theorem works_set {key : Label} (hkey : key.IsText) (value : String) :
    Works g m (onCounters (CounterStore.set key value) : Action (Site σ) Unit)
      (fun _ m' => m' = m.put key value) fun _ m' => m' = m ∧ mayRefuse σ := by
  refine works_onCounters fun s hs => ?_
  rw [← hs]
  exact set_ensures hkey value s

theorem works_increment {key : Label} (hkey : key.IsText) (step : Int) :
    Works g m (onCounters (CounterStore.increment key step) : Action (Site σ) Int)
      (fun z m' => ∃ c, m.Counts key c ∧ z = c + step ∧ Numeral.IsWritable z ∧
        m' = m.put key (Numeral.decimal z))
      fun _ m' => m' = m ∧ (mayRefuse σ ∨ ∀ c, m.Counts key c → ¬ Numeral.IsWritable (c + step)) := by
  refine works_onCounters fun s hs => ?_
  rw [← hs]
  exact increment_ensures hkey step s

theorem works_readCounter {key : Label} (hkey : key.IsText) :
    Works g m (onCounters (CounterStore.readCounter key) : Action (Site σ) Int)
      (fun _ m' => m' = m) fun _ m' => m' = m := by
  refine works_onCounters fun s hs => ?_
  rw [← hs]
  exact (readCounter_ensures hkey s).mono (fun _ _ h => h.2) fun _ _ h => h

/-- Reading a count that is kept once it is not zero. -/
theorem harmless_readOnce {kept : Generator → Int} {key : Schema → Label}
    {keep : Int → Generator → Generator} (hkey : ∀ S : Schema, S.KeysDistinct → (key S).IsText)
    (hkeep : ∀ count g g', Alike g g' → Alike g (keep count g')) :
    Harmless (do
      let g ← Action.look fun site : Site σ => site.generator
      if kept g ≠ 0 then return kept g
      else
        let count ← onCounters (CounterStore.readCounter (key g.schema))
        onGenerator (Action.change (keep count))
        return count) := by
  intro g m hS
  have hlook : Works g m (Action.look fun site : Site σ => site.generator)
      (fun g' m' => g.Alike g' ∧ m' = m) fun _ m' => m' = m := works_look (f := id) fun _ h => ⟨h, rfl⟩
  refine hlook.bind ?_ fun _ _ h => h
  rintro g' _ ⟨hg', rfl⟩
  split
  · exact works_pure rfl
  · rw [hg'.schema]
    refine (works_readCounter (hkey _ hS)).bind ?_ fun _ _ h => h
    rintro count _ rfl
    exact (harmless_change (hkeep count)).bind (fun _ => harmless_pure _) g _ hS

theorem harmless_totalCount : Harmless (totalCount : Action (Site σ) Int) :=
  harmless_readOnce (fun _ hS => hS.totalKey_isText) fun _ _ _ h => ⟨h.settings, h.schema, h.flag⟩

theorem harmless_storedCount : Harmless (storedCount : Action (Site σ) Int) :=
  harmless_readOnce (fun _ hS => hS.storedKey_isText) fun _ _ _ h => ⟨h.settings, h.schema, h.flag⟩

theorem harmless_randomDocId : Harmless (randomDocId : Action (Site σ) String) := by
  unfold randomDocId randomIndex
  refine Harmless.bind (Harmless.bind harmless_totalCount fun total => ?_) fun index => ?_
  · exact harmless_onSampler _
  · exact harmless_ofNumber _

theorem harmless_distributedIndex [Powers] : Harmless (distributedIndex : Action (Site σ) Int) := by
  unfold distributedIndex
  exact harmless_totalCount.bind fun _ => harmless_storedCount.bind fun _ => harmless_onSampler _

theorem harmless_distributedDocId [Powers] : Harmless (distributedDocId : Action (Site σ) String) := by
  unfold distributedDocId
  exact harmless_distributedIndex.bind fun _ => harmless_ofNumber _

/-! ### Bodies and geometries -/

theorem harmless_loadBody (slot : Int) : Harmless (loadBody slot : Action (Site σ) String) := by
  unfold loadBody
  refine Harmless.bind ?_ fun _ => ?_
  · exact harmless_ofNumber _
  · intro g m hS
    refine works_ownSchema_bind ((works_get (hS.bodyKey_isText slot)).bind ?_ fun _ _ h => h)
    rintro found _ ⟨_, rfl⟩
    split
    · exact works_pure rfl
    · exact works_fail rfl

theorem harmless_storedGeometry (body : String) (slot : Int) :
    Harmless (storedGeometry body slot : Action (Site σ) Json.Value) := by
  have hwarn : ∀ text, Harmless
      (do Action.log .warning text; return .null : Action (Site σ) Json.Value) := fun text =>
    (harmless_log .warning text).bind fun _ => harmless_pure _
  unfold storedGeometry
  refine harmless_ownSchema.bind fun S => ?_
  dsimp only
  split
  · exact hwarn _
  · split
    · exact harmless_pure _
    · exact hwarn _
  · exact hwarn _

/-- A shape is always drawn. -/
theorem works_shapePredicate (synth : RandomSource → Shape × RandomSource)
    {after : MemoryStore → Prop} (h : after m) :
    Works g m (shapePredicate synth : Action (Site σ) Predicate) (fun _ m' => after m') failed := by
  have hstep : ∀ s : Sampler, (Action.within (·.source) (fun source s => { s with source })
      (Action.step fun s => ((.ok (synth s).1, (synth s).2) : Except Failure Shape × RandomSource))
      : Action Sampler Shape).Ensures s (fun _ _ => True) fun _ _ => False :=
    fun s => Action.Ensures.within (Action.ensures_step.mpr trivial)
  have hdraw : Works g m (drawShape synth : Action (Site σ) Shape) (fun _ m' => m' = m) failed :=
    (works_onSampler hstep).mono (fun _ _ h => h.1) fun _ _ h => h.2.elim
  refine works_ownSchema_bind (hdraw.bind ?_ fun _ _ h => h)
  rintro _ _ rfl
  exact works_pure h

end GeoWorkload.Generator
