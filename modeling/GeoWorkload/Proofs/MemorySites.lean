import GeoWorkload.Proofs.InsertNumbers

/-!
# Generators at a store in memory

What the steps of compiling a predicate that use the store do at a store in memory, whatever it holds, and
every way in which they fail there: a counter that is missing or no integer (`MemoryStore.Uncounted`), a number
that is too long to be written, or a slot without a body.
-/

namespace GeoWorkload

namespace MemoryStore

/-- What reading a counter fails with that is missing or no integer. -/
inductive Uncounted (m : MemoryStore) (key : Label) : Failure → Prop where
  | missing (h : m.get? key = none) : Uncounted m key (.counterMissing key)
  | notInteger {text : String} (h : m.get? key = some text)
      (hread : ∀ z, Numeral.readInteger text ≠ .ok z) : Uncounted m key (.counterNotInteger key text)

theorem Counts.not_uncounted {m : MemoryStore} {key : Label} {z : Int} (h : m.Counts key z) {e : Failure} :
    ¬ m.Uncounted key e := by
  obtain ⟨text, htext, hread⟩ := h
  rintro (hnone | ⟨htext', hnot⟩)
  · rw [htext] at hnone
    cases hnone
  · rw [htext] at htext'
    cases htext'
    exact hnot z hread

variable {key : Label} {m : MemoryStore}

theorem get_returns (hkey : key.IsText) (m : MemoryStore) :
    (CounterStore.get key).Returns m fun found m' => found = m.get? key ∧ m' = m :=
  (MemoryBacked.get_ensures hkey m).mono (fun _ _ h => h) fun _ _ h => h.2

theorem readCounter_ensures (hkey : key.IsText) (m : MemoryStore) :
    (CounterStore.readCounter key).Ensures m (fun count m' => m.Counts key count ∧ m' = m)
      fun e m' => m.Uncounted key e ∧ m' = m := by
  unfold CounterStore.readCounter
  refine Action.Ensures.bind (get_returns hkey m) ?_ fun _ _ h => h.elim
  rintro found m' ⟨hfound, rfl⟩
  split
  · exact Action.ensures_fail.mpr ⟨.missing hfound.symm, rfl⟩
  · split
    · rename_i hread
      exact Action.ensures_pure.mpr ⟨⟨_, hfound.symm, hread⟩, rfl⟩
    · rename_i hread
      refine Action.ensures_fail.mpr ⟨.notInteger hfound.symm fun z hz => ?_, rfl⟩
      rw [hread] at hz
      cases hz

/-- An increment takes the next number, or it fails and changes nothing. -/
theorem increment_ensures (hkey : key.IsText) (step : Int) (m : MemoryStore) :
    (CounterStore.increment key step).Ensures m
      (fun z m' => ∃ c, m.Counts key c ∧ z = c + step ∧ Numeral.IsWritable z ∧
        m' = m.put key (Numeral.decimal z))
      fun e m' => m' = m ∧ (m.Uncounted key e ∨
        e = .number .unwritable ∧ ∃ c, m.Counts key c ∧ ¬ Numeral.IsWritable (c + step)) := by
  have hstep : (CounterStore.increment key step : Action MemoryStore Int) =
      Action.step fun m => m.increment key step := by
    obtain ⟨t, rfl⟩ := hkey
    rfl
  rw [hstep, Action.ensures_step]
  rcases increment_cases m key step with ⟨c, hc, hw, h⟩ | ⟨hnone, e, h⟩
  · rw [h]
    exact ⟨c, hc, rfl, hw, rfl⟩
  · rw [h]
    refine ⟨rfl, ?_⟩
    unfold increment at h
    rcases hget : m.get? key with _ | text
    · rw [hget] at h
      cases h
      exact Or.inl (.missing hget)
    · rw [hget] at h
      dsimp only at h
      rcases hread : Numeral.readInteger text with f | c
      · rw [hread] at h
        cases h
        refine Or.inl (.notInteger hget fun z hz => ?_)
        rw [hread] at hz
        cases hz
      · have hc : m.Counts key c := ⟨text, hget, hread⟩
        rcases Numeral.writeInteger_cases (c + step) with ⟨hw, _⟩ | ⟨hw, hwrite⟩
        · exact absurd hw (hnone c hc)
        · rw [hread] at h
          dsimp only at h
          rw [hwrite] at h
          cases h
          exact Or.inr ⟨rfl, c, hc, hw⟩

end MemoryStore

namespace Generator

open Site

variable {α : Type} {site : Site MemoryStore}

theorem onCounters_ensures {x : Action MemoryStore α} {ok : α → MemoryStore → Prop}
    {failed : Failure → MemoryStore → Prop} (h : x.Ensures site.counters ok failed) :
    (onCounters x).Ensures site
      (fun a site' => ok a site'.counters ∧ site'.generator = site.generator)
      fun e site' => failed e site'.counters ∧ site'.generator = site.generator :=
  Action.Ensures.within (h.mono (fun _ _ ha => ⟨ha, rfl⟩) fun _ _ he => ⟨he, rfl⟩)

/-- Two sites with the same generator and the same store are one. -/
theorem Site.ext {site site' : Site MemoryStore} (hg : site'.generator = site.generator)
    (hm : site'.counters = site.counters) : site' = site := by
  obtain ⟨g, m⟩ := site
  obtain ⟨g', m'⟩ := site'
  cases hg
  cases hm
  rfl

theorem onCounters_get_returns {key : Label} (hkey : key.IsText) :
    (onCounters (CounterStore.get key)).Returns site
      fun found site' => found = site.counters.get? key ∧ site' = site :=
  (onCounters_ensures (MemoryStore.get_returns hkey _)).mono
    (fun _ _ ⟨⟨hfound, hm⟩, hg⟩ => ⟨hfound, Site.ext hg hm⟩) fun _ _ h => h.1

theorem onCounters_readCounter_ensures {key : Label} (hkey : key.IsText) :
    (onCounters (CounterStore.readCounter key)).Ensures site
      (fun count site' => site.counters.Counts key count ∧ site' = site)
      fun e site' => site.counters.Uncounted key e ∧ site' = site :=
  (onCounters_ensures (MemoryStore.readCounter_ensures hkey _)).mono
    (fun _ _ ⟨⟨hcount, hm⟩, hg⟩ => ⟨hcount, Site.ext hg hm⟩)
    fun _ _ ⟨⟨he, hm⟩, hg⟩ => ⟨he, Site.ext hg hm⟩

/-! ### Counts -/

/-- Reading a counter, unless a number of it is kept that is not zero; what is read is kept. -/
def readOnce {σ : Type} [CounterStore σ] (kept : Generator → Int) (keep : Int → Generator → Generator)
    (key : Schema → Label) : Action (Site σ) Int := do
  let g ← Action.look (·.generator)
  if kept g ≠ 0 then return kept g
  else
    let count ← onCounters (CounterStore.readCounter (key g.schema))
    onGenerator (Action.change (keep count))
    return count

section readOnce

variable {σ : Type} [CounterStore σ]

theorem totalCount_eq : (totalCount : Action (Site σ) Int) =
    readOnce (·.totalRead) (fun count g => { g with totalRead := count }) Schema.totalKey := rfl

theorem storedCount_eq : (storedCount : Action (Site σ) Int) =
    readOnce (·.storedRead) (fun count g => { g with storedRead := count }) Schema.storedKey := rfl

end readOnce

theorem readOnce_ensures {kept : Generator → Int} {keep : Int → Generator → Generator} {key : Schema → Label}
    {ok : Int → Site MemoryStore → Prop} {failed : Failure → Site MemoryStore → Prop}
    (hkey : (key site.generator.schema).IsText) (hkept : kept site.generator ≠ 0 → ok (kept site.generator) site)
    (hread : kept site.generator = 0 → ∀ count, site.counters.Counts (key site.generator.schema) count →
      ok count { site with generator := keep count site.generator })
    (hfailed : ∀ e, site.counters.Uncounted (key site.generator.schema) e → failed e site) :
    (readOnce kept keep key).Ensures site ok failed := by
  unfold readOnce
  refine Action.ensures_look_bind ?_
  split
  · rename_i h
    exact Action.ensures_pure.mpr (hkept h)
  · rename_i h
    refine (onCounters_readCounter_ensures hkey).bind ?_ ?_
    · rintro count site' ⟨hcount, hsite⟩
      rw [hsite]
      have hkeep : (onGenerator (Action.change (keep count)) : Action (Site MemoryStore) Unit).Returns site
          fun _ site' => site' = { site with generator := keep count site.generator } :=
        Action.Ensures.within (Action.ensures_change.mpr rfl)
      refine hkeep.bind ?_ fun _ _ h => h.elim
      rintro _ _ rfl
      exact Action.ensures_pure.mpr (hread (Decidable.not_not.mp h) count hcount)
    · rintro e site' ⟨he, hsite⟩
      exact hsite ▸ hfailed e he

theorem totalCount_ensures (hkey : site.generator.schema.totalKey.IsText)
    {ok : Int → Site MemoryStore → Prop} {failed : Failure → Site MemoryStore → Prop}
    (hkept : site.generator.totalRead ≠ 0 → ok site.generator.totalRead site)
    (hread : site.generator.totalRead = 0 → ∀ count,
      site.counters.Counts site.generator.schema.totalKey count →
        ok count { site with generator := { site.generator with totalRead := count } })
    (hfailed : ∀ e, site.counters.Uncounted site.generator.schema.totalKey e → failed e site) :
    totalCount.Ensures site ok failed := by
  rw [totalCount_eq]
  exact readOnce_ensures hkey hkept hread hfailed

theorem storedCount_ensures (hkey : site.generator.schema.storedKey.IsText)
    {ok : Int → Site MemoryStore → Prop} {failed : Failure → Site MemoryStore → Prop}
    (hkept : site.generator.storedRead ≠ 0 → ok site.generator.storedRead site)
    (hread : site.generator.storedRead = 0 → ∀ count,
      site.counters.Counts site.generator.schema.storedKey count →
        ok count { site with generator := { site.generator with storedRead := count } })
    (hfailed : ∀ e, site.counters.Uncounted site.generator.schema.storedKey e → failed e site) :
    storedCount.Ensures site ok failed := by
  rw [storedCount_eq]
  exact readOnce_ensures hkey hkept hread hfailed

/-! ### Bodies -/

/-- Loading the body in a slot changes nothing.  It fails where the slot cannot be written, for want of a
key, and where it holds no body. -/
theorem loadBody_ensures {slot : Int} (hkey : (site.generator.schema.bodyKey slot).IsText) :
    (loadBody slot).Ensures site
      (fun body site' => site' = site ∧ Numeral.IsWritable slot ∧
        site.counters.get? (site.generator.schema.bodyKey slot) = some body)
      fun e site' => site' = site ∧
        (¬ Numeral.IsWritable slot ∧ e = .number .unwritable ∨
          Numeral.IsWritable slot ∧ site.counters.get? (site.generator.schema.bodyKey slot) = none ∧
            e = .slotNotFound slot (site.generator.schema.bodyKey slot)) := by
  have hwrite : (Action.ofNumber (Numeral.writeInteger slot) : Action (Site MemoryStore) String).Ensures
      site (fun _ site' => site' = site ∧ Numeral.IsWritable slot)
      fun e site' => site' = site ∧ ¬ Numeral.IsWritable slot ∧ e = .number .unwritable := by
    rcases Numeral.writeInteger_cases slot with ⟨hw, hwrite⟩ | ⟨hw, hwrite⟩
    · rw [hwrite]
      exact Action.ensures_ofExcept.mpr ⟨fun _ _ => ⟨rfl, hw⟩, fun e he => by cases he⟩
    · rw [hwrite]
      exact Action.ensures_ofExcept.mpr ⟨fun text h => (by cases h),
        fun e he => ⟨rfl, hw, (Except.error.inj he).symm⟩⟩
  unfold loadBody
  refine hwrite.bind ?_ fun _ _ ⟨hsite, he⟩ => ⟨hsite, Or.inl he⟩
  rintro _ _ ⟨rfl, hw⟩
  refine Action.ensures_look_bind ?_
  refine Action.Ensures.bind (onCounters_get_returns hkey) ?_ fun _ _ h => h.elim
  rintro found _ ⟨hfound, rfl⟩
  split
  · exact Action.ensures_pure.mpr ⟨rfl, hw, hfound.symm⟩
  · exact Action.ensures_fail.mpr ⟨rfl, Or.inr ⟨hw, hfound.symm, rfl⟩⟩

/-- The geometry that a body holds in its field, null where it holds none. -/
def geometryOf (S : Schema) (body : String) : Json.Value :=
  match Json.read body with
  | .ok (.object doc) =>
    match S.geometryField.memberOf doc with
    | .object geometry => .object geometry
    | _ => .null
  | _ => .null

theorem storedGeometry_returns (body : String) (slot : Int) :
    (storedGeometry body slot).Returns site
      fun geometry site' => geometry = geometryOf site.generator.schema body ∧ site' = site := by
  unfold storedGeometry geometryOf
  refine Action.ensures_look_bind ?_
  dsimp only
  rcases Json.read body with e | v
  · exact Action.ensures_log_bind (Action.ensures_pure.mpr ⟨rfl, rfl⟩)
  · cases v with
    | object doc =>
        dsimp only
        cases Label.memberOf doc site.generator.schema.geometryField with
        | object geometry => exact Action.ensures_pure.mpr ⟨rfl, rfl⟩
        | _ => exact Action.ensures_log_bind (Action.ensures_pure.mpr ⟨rfl, rfl⟩)
    | _ => exact Action.ensures_log_bind (Action.ensures_pure.mpr ⟨rfl, rfl⟩)

/-! ### Ids -/

/-- The next id holds the number after the last one, which is taken; failing takes none. -/
theorem nextDocId_ensures (hkey : site.generator.schema.insertKey.IsText) {start : String}
    (hstart : site.generator.schema.keyStart = .text start) : nextDocId.Ensures site
      (fun id site' => ∃ last, site.counters.Counts site.generator.schema.insertKey last ∧
        Numeral.IsWritable (last + 1) ∧ id = start ++ Numeral.decimal (last + 1) ∧
        site' = { site with
          counters := site.counters.put site.generator.schema.insertKey (Numeral.decimal (last + 1)) })
      fun e site' => site' = site ∧ (site.counters.Uncounted site.generator.schema.insertKey e ∨
        e = .number .unwritable ∧ ∃ last, site.counters.Counts site.generator.schema.insertKey last ∧
          ¬ Numeral.IsWritable (last + 1)) := by
  unfold nextDocId
  refine Action.ensures_look_bind ?_
  refine (onCounters_ensures (MemoryStore.increment_ensures hkey 1 _)).bind ?_ ?_
  · rintro _ site' ⟨⟨last, hlast, rfl, hw, hm⟩, hg⟩
    have hid : (site.generator.schema.generatedDocId (last + 1)).toText =
        .ok (start ++ Numeral.decimal (last + 1)) := by
      rw [Schema.generatedDocId, hstart]
      rfl
    rw [hid]
    refine Action.ensures_ofExcept.mpr ⟨fun id hid => ?_, fun e he => by cases he⟩
    cases hid
    exact ⟨last, hlast, hw, rfl, Site.ext hg hm⟩
  · rintro e site' ⟨⟨hm, he⟩, hg⟩
    exact ⟨Site.ext hg hm, he⟩

/-! ### Inserts -/

/-- A generator that has read no number of stored documents reads that of the store. -/
theorem storedCount_of_counts (hkey : site.generator.schema.storedKey.IsText)
    (hread : site.generator.storedRead = 0) {n : Int}
    (hcount : site.counters.Counts site.generator.schema.storedKey n) :
    storedCount.Returns site fun count site' => count = n ∧ site'.counters = site.counters :=
  storedCount_ensures hkey (fun h => absurd hread h) (fun _ _ hcount' => ⟨hcount'.unique hcount, rfl⟩)
    fun _ he => hcount.not_uncounted he

/-- Such a generator compiles no insert as long as the store counts no documents. -/
theorem compileInsert_of_no_documents (hkey : site.generator.schema.storedKey.IsText)
    (hread : site.generator.storedRead = 0) {n : Int} (hn : n ≤ 0)
    (hcount : site.counters.Counts site.generator.schema.storedKey n) :
    compileInsert.Ensures site (fun _ _ => False)
      fun e site' => e = .populationNotPositive n ∧ site'.counters = site.counters := by
  have hempty : ∀ site' : Site MemoryStore, (onSampler (Sampler.uniform n)).Ensures site'
      (fun _ _ => False) fun e site'' => e = .populationNotPositive n ∧ site''.counters = site'.counters := by
    intro site'
    unfold onSampler onGenerator Sampler.uniform
    rw [if_pos hn]
    exact Action.Ensures.within (Action.Ensures.within (Action.ensures_fail.mpr ⟨rfl, rfl⟩))
  unfold compileInsert
  refine (storedCount_of_counts hkey hread hcount).bind ?_ fun _ _ h => h.elim
  rintro count site' ⟨hcount, hsite'⟩
  rw [hcount]
  exact (hempty site').bind (fun _ _ h => h.elim) fun e site'' ⟨he, h⟩ => ⟨he, h.trans hsite'⟩

end Generator

end GeoWorkload
