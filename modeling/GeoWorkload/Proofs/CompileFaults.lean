import GeoWorkload.Proofs.Draws
import GeoWorkload.Proofs.MemorySites

/-!
# What compiling fails with

Whatever a store in memory holds and whatever is drawn, compiling fails in one of four ways
(`Generator.Fault`): a counter is missing or no integer, a slot has no body, the number of documents to draw
from is not positive, or arithmetic on numbers fails, as on one that is too long to be written.  Every step of
compiling is shown to be `Diagnosed`, and so is everything that is made of such steps.
-/

namespace GeoWorkload.Generator

open Site

/-- What a step of compiling fails with at a store. -/
inductive Fault (S : Schema) (m : MemoryStore) : Failure → Prop where
  | counter {key : Label} {e : Failure} (hkey : key ∈ [S.totalKey, S.storedKey, S.insertKey])
      (h : m.Uncounted key e) : Fault S m e
  | body {slot : Int} (h : m.get? (S.bodyKey slot) = none) :
      Fault S m (.slotNotFound slot (S.bodyKey slot))
  | population {n : Int} (h : n ≤ 0) : Fault S m (.populationNotPositive n)
  | number (n : NumberError) : Fault S m (.number n)

/-- The generator has the schema, and its sampler the usual exponent. -/
structure Usual (S : Schema) (g : Generator) : Prop where
  schema : g.schema = S
  theta : g.sampler.theta = defaultTheta

theorem usual_make (settings : Settings) (S : Schema) (source : RandomSource) :
    (make settings S source).Usual S := ⟨rfl, rfl⟩

/-- At any store in memory, the action of a usual generator gives a value or fails with a fault of the store,
and the generator is usual afterwards. -/
def Diagnosed {α : Type} (S : Schema) (x : Action (Site MemoryStore) α) : Prop :=
  ∀ site, site.generator.Usual S → x.Ensures site (fun _ site' => site'.generator.Usual S)
    fun e site' => site'.generator.Usual S ∧ Fault S site'.counters e

variable {α β : Type} {S : Schema} {x : Action (Site MemoryStore) α}

/-! ### Rules -/

theorem diagnosed_pure (a : α) : Diagnosed S (pure a : Action (Site MemoryStore) α) :=
  fun _ h => Action.ensures_pure.mpr h

theorem Diagnosed.bind {f : α → Action (Site MemoryStore) β} (hx : Diagnosed S x)
    (hf : ∀ a, Diagnosed S (f a)) : Diagnosed S (x >>= f) :=
  fun site h => (hx site h).bind (fun a site' h' => hf a site' h') fun _ _ h' => h'

theorem diagnosed_look_bind {get : Site MemoryStore → α} {f : α → Action (Site MemoryStore) β}
    (hf : ∀ site, site.generator.Usual S → Diagnosed S (f (get site))) :
    Diagnosed S (Action.look get >>= f) :=
  fun site h => Action.ensures_look_bind (hf site h site h)

theorem diagnosed_ownSchema_bind {f : Schema → Action (Site MemoryStore) α} (hf : Diagnosed S (f S)) :
    Diagnosed S (ownSchema >>= f) := by
  refine diagnosed_look_bind fun site h => ?_
  rw [h.schema]
  exact hf

theorem diagnosed_ofNumber (r : Except NumberError α) :
    Diagnosed S (Action.ofNumber r : Action (Site MemoryStore) α) := by
  refine fun site h => Action.ensures_ofExcept.mpr ⟨fun _ _ => h, fun e he => ⟨h, ?_⟩⟩
  obtain ⟨n, _, rfl⟩ := exists_of_mapError he
  exact .number n

/-- Sampling fails with an empty population or with numbers. -/
theorem diagnosed_onSampler {x : Action Sampler α}
    (hx : ∀ settings (s : Sampler), s.Sound settings 0 → x.Ensures s (fun _ s' => s'.Sound settings 0)
      fun e s' => s'.Sound settings 0 ∧ ∀ m, Fault S m e) : Diagnosed S (onSampler x) := by
  intro site h
  -- a source is fair up to no population, and the settings are taken to be those of the sampler
  have hsound : site.generator.sampler.Sound
      { window := site.generator.sampler.window, distribution := site.generator.sampler.distribution }
      0 := ⟨rfl, rfl, h.theta, RandomSource.fair_zero _⟩
  unfold onSampler onGenerator
  refine Action.Ensures.within (Action.Ensures.within ((hx _ _ hsound).mono ?_ ?_))
  · exact fun _ s hs => ⟨h.schema, hs.theta⟩
  · exact fun e s ⟨hs, he⟩ => ⟨⟨h.schema, hs.theta⟩, he _⟩

theorem diagnosed_draw {f : RandomSource → Except NumberError α × RandomSource} :
    Diagnosed S (onSampler (Sampler.draw f) : Action (Site MemoryStore) α) := by
  refine diagnosed_onSampler fun settings s hs => ?_
  refine (Sampler.draw_ensures hs (RandomSource.fair_zero _)).mono (fun _ _ h => h.1) ?_
  rintro e s' ⟨hs', n, _, rfl⟩
  exact ⟨hs', fun _ => .number n⟩

theorem diagnosed_uniform (population : Int) :
    Diagnosed S (onSampler (Sampler.uniform population) : Action (Site MemoryStore) Int) := by
  refine diagnosed_onSampler fun settings s hs => ?_
  refine (Sampler.uniform_ensures hs population).mono (fun _ _ h => h.1) ?_
  rintro e s' ⟨hs', ⟨hempty, rfl⟩ | ⟨_, n, rfl⟩⟩
  · exact ⟨hs', fun _ => .population hempty⟩
  · exact ⟨hs', fun _ => .number n⟩

theorem diagnosed_sample [Powers] (population stored : Int) :
    Diagnosed S (onSampler (Sampler.sample population stored) : Action (Site MemoryStore) Int) := by
  refine diagnosed_onSampler fun settings s hs => ?_
  refine (Sampler.sample_ensures hs population stored).mono (fun _ _ h => h.1) ?_
  rintro e s' ⟨hs', ⟨hempty, rfl⟩ | ⟨_, n, rfl⟩⟩
  · exact ⟨hs', fun _ => .population hempty⟩
  · exact ⟨hs', fun _ => .number n⟩

/-! ### Steps of compiling -/

theorem diagnosed_totalCount (hS : S.KeysText) :
    Diagnosed S (totalCount : Action (Site MemoryStore) Int) := by
  intro site h
  obtain rfl := h.schema
  refine totalCount_ensures (hS .total trivial) (fun _ => h) (fun _ _ _ => ⟨rfl, h.theta⟩) fun e he => ⟨h, ?_⟩
  exact .counter (by simp) he

theorem diagnosed_storedCount (hS : S.KeysText) :
    Diagnosed S (storedCount : Action (Site MemoryStore) Int) := by
  intro site h
  obtain rfl := h.schema
  refine storedCount_ensures (hS .stored trivial) (fun _ => h) (fun _ _ _ => ⟨rfl, h.theta⟩) fun e he => ⟨h, ?_⟩
  exact .counter (by simp) he

theorem diagnosed_distributedIndex [Powers] (hS : S.KeysText) :
    Diagnosed S (distributedIndex : Action (Site MemoryStore) Int) := by
  unfold distributedIndex
  exact (diagnosed_totalCount hS).bind fun total => (diagnosed_storedCount hS).bind fun stored =>
    diagnosed_sample total stored

theorem diagnosed_distributedDocId [Powers] (hS : S.KeysText) :
    Diagnosed S (distributedDocId : Action (Site MemoryStore) String) := by
  unfold distributedDocId
  exact (diagnosed_distributedIndex hS).bind fun _ => diagnosed_ofNumber _

theorem diagnosed_limit : Diagnosed S (limit : Action (Site MemoryStore) Int) :=
  diagnosed_look_bind fun _ _ => diagnosed_draw

theorem diagnosed_offset : Diagnosed S (offset : Action (Site MemoryStore) Int) :=
  diagnosed_look_bind fun _ _ => diagnosed_draw

theorem diagnosed_loadBody (hS : S.KeysText) (slot : Int) :
    Diagnosed S (loadBody slot : Action (Site MemoryStore) String) := by
  intro site h
  obtain rfl := h.schema
  refine (loadBody_ensures (hS (.body slot) trivial)).mono ?_ ?_
  · rintro _ _ ⟨rfl, _⟩
    exact h
  · rintro e _ ⟨rfl, ⟨_, rfl⟩ | ⟨_, hnone, rfl⟩⟩
    · exact ⟨h, .number _⟩
    · exact ⟨h, .body hnone⟩

theorem diagnosed_nextDocId (hS : S.KeysText) :
    Diagnosed S (nextDocId : Action (Site MemoryStore) String) := by
  intro site h
  obtain ⟨⟨start, hstart⟩, _⟩ := Label.isText_append_iff.mp (hS .inserts trivial)
  obtain rfl := h.schema
  refine (nextDocId_ensures (hS .inserts trivial) hstart).mono ?_ ?_
  · rintro _ _ ⟨_, _, _, _, rfl⟩
    exact h
  · rintro e _ ⟨rfl, he | ⟨rfl, _⟩⟩
    · exact ⟨h, .counter (by simp) he⟩
    · exact ⟨h, .number _⟩

theorem diagnosed_storedGeometry (body : String) (slot : Int) :
    Diagnosed S (storedGeometry body slot : Action (Site MemoryStore) Json.Value) := by
  intro site h
  refine (storedGeometry_returns body slot).mono ?_ fun _ _ h => h.elim
  rintro _ _ ⟨_, rfl⟩
  exact h

theorem diagnosed_shapePredicate (synth : RandomSource → Shape × RandomSource) :
    Diagnosed S (shapePredicate synth : Action (Site MemoryStore) Predicate) := by
  unfold shapePredicate
  refine diagnosed_ownSchema_bind (Diagnosed.bind ?_ fun _ => diagnosed_pure _)
  unfold drawShape onSource
  refine diagnosed_onSampler fun settings s hs => Action.Ensures.within (Action.ensures_step.mpr ?_)
  exact hs.withSource (RandomSource.fair_zero _)

/-! ### Predicates -/

theorem diagnosed_compileInsert (hS : S.KeysText) :
    Diagnosed S (compileInsert : Action (Site MemoryStore) Predicate) := by
  unfold compileInsert
  refine (diagnosed_storedCount hS).bind fun stored => (diagnosed_uniform stored).bind fun slot => ?_
  exact (diagnosed_loadBody hS slot).bind fun body => (diagnosed_nextDocId hS).bind fun _ =>
    diagnosed_pure _

theorem diagnosed_compileUpdate (hS : S.KeysText) :
    Diagnosed S (compileUpdate : Action (Site MemoryStore) Predicate) := by
  unfold compileUpdate
  exact (diagnosed_compileInsert hS).bind fun _ => (diagnosed_shapePredicate _).bind fun _ =>
    diagnosed_pure _

theorem diagnosed_spacedShape (hS : S.KeysText) (synth : RandomSource → Shape × RandomSource) :
    Diagnosed S (spacedShape synth : Action (Site MemoryStore) Predicate) := by
  unfold spacedShape
  exact (diagnosed_compileInsert hS).bind fun _ => diagnosed_shapePredicate synth

theorem diagnosed_compileReadWith [Powers] (hS : S.KeysText) (withPolygon : Bool) :
    Diagnosed S (compileReadWith withPolygon : Action (Site MemoryStore) Predicate) := by
  unfold compileReadWith
  refine diagnosed_ownSchema_bind ((diagnosed_distributedIndex hS).bind fun slot => ?_)
  refine (diagnosed_loadBody hS slot).bind fun body => (diagnosed_nextDocId hS).bind fun id => ?_
  refine (diagnosed_storedGeometry body slot).bind fun geometry => ?_
  refine (diagnosed_spacedShape hS _).bind fun point => (diagnosed_spacedShape hS _).bind fun lines => ?_
  split
  · exact (diagnosed_spacedShape hS _).bind fun _ => diagnosed_pure _
  · exact diagnosed_pure _

theorem diagnosed_compileRead [Powers] (hS : S.KeysText) :
    Diagnosed S (compileRead : Action (Site MemoryStore) Predicate) :=
  diagnosed_look_bind fun _ _ => diagnosed_compileReadWith hS _

end GeoWorkload.Generator
