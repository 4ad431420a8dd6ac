import GeoWorkload.Proofs.Archive
import GeoWorkload.Proofs.Draws
import GeoWorkload.Proofs.MemorySites

/-!
# Generators at a stocked store

A store in memory that was seeded and has ingested documents since then is stocked (`MemoryStore.Stocked`).
A generator is ready for it as long as it has read no other counts than those of the store
(`Generator.Ready`), and it goes by the first number of stored documents that was not zero when it read it
(`Generator.known`).  One lemma for each step of compiling a predicate says what the step gives there and how
it may fail.
-/

namespace GeoWorkload

/-! ### Stocked stores -/

/-- The bodies of documents. -/
def bodies (docs : List (String × Json.Value)) : List String :=
  docs.map fun doc => Generator.bodyOf doc.2

/-- The store holds documents with their keys and no others, and it counts how many documents there are to be
and which number the last insert took. -/
structure MemoryStore.Stocked (S : Schema) (total : Int) (docs : List (String × Json.Value)) (last : Int)
    (m : MemoryStore) : Prop where
  archive : Archive S docs m
  total : m.Counts S.totalKey total
  inserts : m.Counts S.insertKey last
  writable : Numeral.IsWritable last

theorem MemoryStore.Counts.of_get? {m m' : MemoryStore} {key : Label} {z : Int} (h : m.Counts key z)
    (hkept : ∀ text, m.get? key = some text → m'.get? key = some text) : m'.Counts key z := by
  obtain ⟨text, htext, hread⟩ := h
  exact ⟨text, hkept text htext, hread⟩

namespace MemoryStore.Stocked

variable {S : Schema} {total last : Int} {docs : List (String × Json.Value)} {m m' : MemoryStore}

/-- A seeded store is stocked with no documents. -/
theorem of_seedCounters (hS : S.KeysDistinct) {start : Int} (ht : Numeral.IsWritable total)
    (hs : Numeral.IsWritable (total + 1 + start)) :
    Stocked S total [] (total + 1 + start)
      ((CounterStore.seedCounters S total start).after MemoryStore.empty) := by
  obtain ⟨htotal, hinserts⟩ := CounterStore.counts_seedCounters hS ht hs rfl
  exact ⟨.of_seeded hS (.of_isWritable hS ht hs), htotal, hinserts, hs⟩

/-- Taking the number of an insert leaves all else as it is. -/
theorem of_put (hS : S.KeysDistinct) (h : Stocked S total docs last m)
    (hw : Numeral.IsWritable (last + 1)) :
    Stocked S total docs (last + 1) (m.put S.insertKey (Numeral.decimal (last + 1))) := by
  have hadvanced := Schema.Advanced.of_put hS h.inserts hw
  have htotal : S.totalKey ≠ S.insertKey := hS.ne .total .inserts trivial trivial nofun
  exact ⟨h.archive.of_advanced hS hadvanced,
    h.total.of_get? fun text htext => (hadvanced.outside _ htotal).trans htext,
    hadvanced.counts last h.inserts, hw⟩

/-- An ingest adds its document. -/
theorem of_ingested (hS : S.KeysDistinct) (h : Stocked S total docs last m) {slot : Int}
    {key body : String} {document : Json.Value} {tokens : Tokens} {flag flag' : Bool}
    (hcontents : Generator.contents? S document = some (body, tokens))
    (hm : Generator.Ingested S slot key body tokens flag flag' m m') :
    Stocked S total (docs ++ [(key, document)]) last m' := by
  have hkept : ∀ k, S.Uses k → k ≠ .stored → k ≠ .docId slot → k ≠ .body slot →
      (∀ p, k ≠ .field p slot) → ∀ text, m.get? (S.keyFor k) = some text →
        m'.get? (S.keyFor k) = some text := by
    intro k hk hstored hid hbody hfield text htext
    refine hm.claimed.kept _ text htext (hS.ne k .stored hk trivial hstored) ?_
    rintro (h | h | ⟨p, hp, h⟩)
    · exact hS.ne k (.docId slot) hk trivial hid h
    · exact hS.ne k (.body slot) hk trivial hbody h
    · exact hS.ne k (.field p slot) hk hp (hfield p) h
  refine ⟨h.archive.concat hS hcontents hm, ?_, ?_, h.writable⟩
  · exact h.total.of_get? (hkept .total trivial nofun nofun nofun nofun)
  · exact h.inserts.of_get? (hkept .inserts trivial nofun nofun nofun nofun)

/-- What stands in a slot is the body of the document there. -/
theorem get?_bodyKey (h : Stocked S total docs last m) (slot : Int) :
    m.get? (S.bodyKey slot) = slotText (bodies docs) slot :=
  h.archive.body slot

/-- A slot of a stocked store can be written. -/
theorem isWritable_slot (h : Stocked S total docs last m) {slot : Int} (h0 : 0 ≤ slot)
    (hlt : slot < docs.length) : Numeral.IsWritable slot := by
  have hw := h.archive.writable
  unfold Numeral.IsWritable at hw ⊢
  exact Nat.lt_of_le_of_lt (by omega) hw

end MemoryStore.Stocked

/-! ### Ready generators -/

/-- What a generator is to work with: its settings and its schema, the bound up to which its source is fair,
and the total number of documents that its store counts. -/
structure Setup where
  settings : Settings
  schema : Schema
  bound : Int
  total : Int

namespace Generator

/-- The generator has read no other total than that of the store, and as the number of stored documents what
is said of it, zero for none. -/
structure Ready (w : Setup) (read : Int) (g : Generator) : Prop where
  settings : g.settings = w.settings
  schema : g.schema = w.schema
  sampler : g.sampler.Sound w.settings w.bound
  total : g.totalRead = 0 ∨ g.totalRead = w.total
  stored : g.storedRead = read

theorem ready_make {w : Setup} {source : RandomSource} (h : source.Fair w.bound) :
    (make w.settings w.schema source).Ready w 0 :=
  ⟨rfl, rfl, Sampler.sound_make h, Or.inl rfl, rfl⟩

/-- The number of stored documents that a generator goes by: the one that it has read, or the one that it is
about to read. -/
def known (read stored : Int) : Int := if read ≠ 0 then read else stored

theorem known_known (read stored : Int) : known (known read stored) stored = known read stored := by
  unfold known
  split <;> simp_all

namespace Ready

variable {w : Setup} {read : Int} {g : Generator}

theorem withSampler (h : g.Ready w read) {sampler : Sampler}
    (hs : sampler.Sound w.settings w.bound) : Ready w read { g with sampler } :=
  ⟨h.settings, h.schema, hs, h.total, h.stored⟩

theorem withTotal (h : g.Ready w read) : Ready w read { g with totalRead := w.total } :=
  ⟨h.settings, h.schema, h.sampler, Or.inr rfl, h.stored⟩

theorem withStored (h : g.Ready w read) (count : Int) : Ready w count { g with storedRead := count } :=
  ⟨h.settings, h.schema, h.sampler, h.total, rfl⟩

theorem withFlag (h : g.Ready w read) (flag : Bool) : Ready w read { g with allInitialized := flag } :=
  ⟨h.settings, h.schema, h.sampler, h.total, h.stored⟩

end Ready

/-- A generator that is ready is at the store `m`. -/
structure Site.At (w : Setup) (read : Int) (m : MemoryStore) (site : Site MemoryStore) : Prop where
  ready : site.generator.Ready w read
  counters : site.counters = m

open Site

variable {α : Type} {w : Setup} {read last : Int} {docs : List (String × Json.Value)} {m : MemoryStore}
  {site : Site MemoryStore}

theorem ownSchema_bind_ensures {f : Schema → Action (Site MemoryStore) α}
    {ok : α → Site MemoryStore → Prop} {failed : Failure → Site MemoryStore → Prop}
    (hsite : site.At w read m) (h : (f w.schema).Ensures site ok failed) :
    (ownSchema >>= f).Ensures site ok failed := by
  refine Action.ensures_look_bind ?_
  rw [hsite.ready.schema]
  exact h

theorem onSampler_ensures {x : Action Sampler α} {ok : α → Prop} {failed : Failure → Prop}
    (hsite : site.At w read m) (hx : ∀ s : Sampler, s.Sound w.settings w.bound →
      x.Ensures s (fun a s' => s'.Sound w.settings w.bound ∧ ok a)
        fun e s' => s'.Sound w.settings w.bound ∧ failed e) :
    (onSampler x).Ensures site (fun a site' => site'.At w read m ∧ ok a)
      fun e site' => site'.At w read m ∧ failed e := by
  unfold onSampler onGenerator
  refine Action.Ensures.within (Action.Ensures.within ((hx _ hsite.ready.sampler).mono ?_ ?_))
  · exact fun a s ⟨hs, ha⟩ => ⟨⟨hsite.ready.withSampler hs, hsite.counters⟩, ha⟩
  · exact fun e s ⟨hs, he⟩ => ⟨⟨hsite.ready.withSampler hs, hsite.counters⟩, he⟩

/-! ### Counts -/

theorem totalCount_returns (hS : w.schema.KeysDistinct) (hsite : site.At w read m)
    (hm : m.Stocked w.schema w.total docs last) :
    totalCount.Returns site fun count site' => count = w.total ∧ site'.At w read m := by
  obtain ⟨hready, rfl⟩ := hsite
  refine totalCount_ensures (hready.schema ▸ hS.totalKey_isText) (fun hread => ?_) (fun _ count hcount => ?_) fun e he => ?_
  · exact ⟨hready.total.resolve_left hread, hready, rfl⟩
  · rw [hready.schema] at hcount
    obtain rfl := hcount.unique hm.total
    exact ⟨rfl, hready.withTotal, rfl⟩
  · rw [hready.schema] at he
    exact hm.total.not_uncounted he

/-- The number of stored documents is the one that the generator goes by, from then on as well. -/
theorem storedCount_returns (hS : w.schema.KeysDistinct) (hsite : site.At w read m)
    (hm : m.Stocked w.schema w.total docs last) :
    storedCount.Returns site fun count site' =>
      count = known read docs.length ∧ site'.At w (known read docs.length) m := by
  obtain ⟨hready, rfl⟩ := hsite
  obtain rfl := hready.stored
  refine storedCount_ensures (hready.schema ▸ hS.storedKey_isText) (fun hread => ?_)
    (fun hread count hcount => ?_) fun e he => ?_
  · rw [known, if_pos hread]
    exact ⟨rfl, hready, rfl⟩
  · rw [hready.schema] at hcount
    obtain rfl := hcount.unique hm.archive.counts_stored
    rw [known, if_neg (Decidable.not_not.mpr hread)]
    exact ⟨rfl, hready.withStored _, rfl⟩
  · rw [hready.schema] at he
    exact hm.archive.counts_stored.not_uncounted he

/-! ### Ingests -/

/-- However the action ends, it has changed nothing of the generator but its flag. -/
def FlagsOnly (x : Action (Site MemoryStore) α) : Prop :=
  ∀ site, x.Ensures site
    (fun _ site' => ∃ flag, site'.generator = { site.generator with allInitialized := flag })
    fun _ site' => ∃ flag, site'.generator = { site.generator with allInitialized := flag }

theorem flagsOnly_of_generator {x : Action (Site MemoryStore) α}
    (hx : ∀ site, x.Ensures site (fun _ site' => site'.generator = site.generator)
      fun _ site' => site'.generator = site.generator) : FlagsOnly x := fun site =>
  (hx site).mono (fun _ _ h => ⟨site.generator.allInitialized, h⟩)
    fun _ _ h => ⟨site.generator.allInitialized, h⟩

theorem FlagsOnly.bind {β : Type} {x : Action (Site MemoryStore) α}
    {f : α → Action (Site MemoryStore) β} (hx : FlagsOnly x) (hf : ∀ a, FlagsOnly (f a)) :
    FlagsOnly (x >>= f) := by
  intro site
  refine (hx site).bind ?_ fun _ _ h => h
  rintro a site' ⟨flag, hflag⟩
  have hlater := hf a site'
  rw [hflag] at hlater
  exact hlater

theorem flagsOnly_onCounters (x : Action MemoryStore α) : FlagsOnly (onCounters x) :=
  flagsOnly_of_generator fun _ => (onCounters_ensures Action.ensures_true).mono (fun _ _ h => h.2)
    fun _ _ h => h.2

theorem flagsOnly_ofExcept (r : Except Failure α) :
    FlagsOnly (Action.ofExcept r : Action (Site MemoryStore) α) :=
  flagsOnly_of_generator fun _ => Action.ensures_ofExcept.mpr ⟨fun _ _ => rfl, fun _ _ => rfl⟩

theorem flagsOnly_pure (a : α) : FlagsOnly (pure a : Action (Site MemoryStore) α) :=
  flagsOnly_of_generator fun _ => Action.ensures_pure.mpr rfl

theorem flagsOnly_repair (slot : Int) : FlagsOnly (repair slot : Action (Site MemoryStore) Unit) := by
  intro site
  unfold repair
  refine Action.ensures_look_bind ?_
  split
  · refine (flagsOnly_onCounters _).bind (fun complete => FlagsOnly.bind ?_ fun _ => ?_) site
    · exact fun site => Action.Ensures.within (Action.ensures_change.mpr ⟨complete, rfl⟩)
    · split
      · exact flagsOnly_of_generator fun _ => Action.ensures_log.mpr rfl
      · exact flagsOnly_pure _
  · exact flagsOnly_pure _ site

theorem flagsOnly_ingestDocument (key : String) (document : Json.Value) :
    FlagsOnly (ingestDocument key document : Action (Site MemoryStore) Int) := by
  unfold ingestDocument ingest
  refine (flagsOnly_ofExcept _).bind fun body => FlagsOnly.bind ?_ fun S => ?_
  · exact flagsOnly_of_generator fun _ => Action.ensures_look.mpr rfl
  · refine FlagsOnly.bind ?_ fun _ => (flagsOnly_ofExcept _).bind fun tokens => ?_
    · exact flagsOnly_of_generator fun _ => Action.ensures_logAll.mpr rfl
    · refine (flagsOnly_onCounters _).bind fun count => (flagsOnly_onCounters _).bind fun _ => ?_
      refine (flagsOnly_onCounters _).bind fun _ => (flagsOnly_onCounters _).bind fun _ => ?_
      refine (flagsOnly_repair _).bind fun _ => FlagsOnly.bind ?_ fun _ => flagsOnly_pure _
      exact flagsOnly_of_generator fun _ => Action.ensures_log.mpr rfl

/-- An ingest adds its document to those of the store, or it fails and adds none, for want of tokens or of a
number that is short enough; what the generator has read stays as it is. -/
theorem ingestDocument_stocked (hS : w.schema.KeysDistinct) (hsite : site.At w read m)
    (hm : m.Stocked w.schema w.total docs last) (key : String) (document : Json.Value) :
    (ingestDocument key document).Ensures site
      (fun _ site' => ∃ m', site'.At w read m' ∧
        m'.Stocked w.schema w.total (docs ++ [(key, document)]) last)
      fun _ site' => site'.At w read m ∧
        ((contents? w.schema document).isSome → ¬ Numeral.IsWritable (docs.length + 1)) := by
  obtain ⟨hready, rfl⟩ := hsite
  have hS' : site.generator.schema.KeysDistinct := hready.schema ▸ hS
  refine ((ingestDocument_ensures hS' key document site.holds_self).and
    (flagsOnly_ingestDocument key document site)).mono ?_ ?_
  · rintro slot site' ⟨⟨body, tokens, _, _, hcontents, ⟨_, rfl⟩, hingested⟩, flag, hflag⟩
    refine ⟨_, ⟨hflag ▸ hready.withFlag flag, rfl⟩, ?_⟩
    rw [hready.schema] at hcontents hingested
    exact hm.of_ingested hS hcontents hingested
  · rintro e site' ⟨⟨_, ⟨_, rfl⟩, hfailed⟩, flag, hflag⟩
    rcases hfailed with ⟨hm', hwhy⟩ | ⟨hrefuse, _⟩
    · refine ⟨⟨hflag ▸ hready.withFlag flag, hm'⟩, fun hsome => ?_⟩
      rw [hready.schema] at hwhy
      rcases hwhy with hrefuse | hnone | hshort
      · exact hrefuse.elim
      · exact absurd hsome hnone
      · exact hshort _ hm.archive.counts_stored
    · exact hrefuse.elim

end Generator

end GeoWorkload
