import GeoWorkload.Proofs.SingleMix
import GeoWorkload.Proofs.StockedSites
import GeoWorkload.Proofs.Transactions

/-!
# Scans

A scan reads the two counts of documents, draws, and changes nothing at the counter store.  So at a store that
shows the same counts whenever they are read (`CounterStore.Shows`), how the request of a scan comes out hangs on
the generator alone: each step of it ends in one way whatever the log (`Generator.Resolves`), and only numbers can
make it fail, which they never do where the index is drawn uniformly and the bounds of the window can be written
(`Generator.resolves_request_scan`).
-/

namespace GeoWorkload

/-! ### Stores that show counts -/

/-- The store shows the numbers of all and of the stored documents whenever they are read, and neither that nor the
end of its use changes it. -/
structure CounterStore.Shows {σ : Type} [CounterStore σ] (S : Schema) (total stored : Int) (s : σ) : Prop where
  total : (readCounter S.totalKey).Ends s (.ok total) s
  stored : (readCounter S.storedKey).Ends s (.ok stored) s
  close : (CounterStore.close : Action σ Unit).Ends s (.ok ()) s

theorem CounterStore.readCounter_writable {σ : Type} [CounterStore σ] (key : Label) (s : σ) :
    (readCounter key).Ensures s (fun z _ => Numeral.IsWritable z) fun _ _ => True := by
  unfold readCounter
  refine Action.ensures_true.bind ?_ fun _ _ h => h
  intro found s' _
  split
  · exact Action.ensures_fail.mpr trivial
  · split
    · rename_i hread
      exact Action.ensures_pure.mpr (Numeral.isWritable_of_readInteger hread)
    · exact Action.ensures_fail.mpr trivial

theorem CounterStore.Shows.isWritable_total {σ : Type} [CounterStore σ] {S : Schema} {total stored : Int} {s : σ}
    (h : Shows S total stored s) : Numeral.IsWritable total := by
  have hread := h.total.of_ensures (readCounter_writable S.totalKey s)
  dsimp only at hread
  exact hread

/-- A store in memory that counts documents shows how many. -/
theorem MemoryStore.shows_of_counts {S : Schema} (hS : S.KeysText) {m : MemoryStore} {total stored : Int}
    (htotal : m.Counts S.totalKey total) (hstored : m.Counts S.storedKey stored) :
    CounterStore.Shows S total stored m := by
  have hread : ∀ {key : Label} {z : Int}, key.IsText → m.Counts key z →
      (CounterStore.readCounter key).Ends m (.ok z) m := by
    intro key z hkey hz
    refine Action.Returns.ends ((readCounter_ensures hkey m).mono ?_ ?_)
    · exact fun count m' ⟨hcount, hm'⟩ => ⟨hcount.unique hz, hm'⟩
    · exact fun e m' ⟨he, _⟩ => hz.not_uncounted he
  exact ⟨hread (hS .total trivial) htotal, hread (hS .stored trivial) hstored, Action.ends_pure ()⟩

/-- A store that was empty before it was seeded shows the total number of documents and that none is stored. -/
theorem MemoryStore.shows_of_seedCounters {S : Schema} (hS : S.KeysDistinct) {total start : Int}
    (ht : Numeral.IsWritable total) (hs : Numeral.IsWritable (total + 1 + start)) :
    CounterStore.Shows S total 0 ((CounterStore.seedCounters S total start).after MemoryStore.empty) := by
  have hm := Stocked.of_seedCounters hS ht hs
  exact shows_of_counts hS.keysText hm.total hm.archive.counts_stored

/-! ### Draws -/

/-- No bound of the window is too long to be written. -/
structure Window.IsWritable (w : Window) : Prop where
  limitMin : Numeral.IsWritable w.limitMin
  limitMax : Numeral.IsWritable w.limitMax
  offsetMin : Numeral.IsWritable w.offsetMin
  offsetMax : Numeral.IsWritable w.offsetMax

theorem Window.isWritable_default : Window.default.IsWritable where
  limitMin := by decide +kernel
  limitMax := by decide +kernel
  offsetMin := by decide +kernel
  offsetMax := by decide +kernel

/-- A fair source draws from every interval within the bound. -/
theorem Window.draw_fair {bound : Int} {s : RandomSource} (h : s.Fair bound) {least greatest : Int}
    (hle : least ≤ greatest) (hbound : greatest - least + 1 ≤ bound) :
    (∃ z, (draw least greatest s).1 = .ok z ∧ least ≤ z ∧ z ≤ greatest) ∧
      (draw least greatest s).2.Fair bound := by
  unfold draw
  split
  · exact ⟨⟨greatest, rfl, hle, Int.le_refl greatest⟩, h⟩
  · obtain ⟨r, hr, h0, hlt⟩ := h _ .refl (greatest - least + 1) (by omega) hbound
    unfold RandomSource.between
    dsimp only
    rw [hr]
    exact ⟨⟨least + r, rfl, by omega, by omega⟩, h.below _⟩

/-! ### Ready generators at such a store -/

/-- The source is fair for the population and for both windows. -/
structure Setup.Covers (w : Setup) : Prop where
  total : w.total ≤ w.bound
  limit : w.settings.window.limitMax - w.settings.window.limitMin + 1 ≤ w.bound
  offset : w.settings.window.offsetMax - w.settings.window.offsetMin + 1 ≤ w.bound

/-- What may make a scan fail: numbers, where the index is not drawn uniformly or a bound of the window is too long
to be written. -/
def Setup.MayFail (w : Setup) (e : Failure) : Prop :=
  (w.settings.distribution ≠ .uniform ∨ ¬ w.settings.window.IsWritable) ∧ ∃ n, e = .number n

theorem Setup.not_mayFail {w : Setup} (huniform : w.settings.distribution = .uniform)
    (hwindow : w.settings.window.IsWritable) (e : Failure) : ¬ w.MayFail e := fun h =>
  h.1.elim (absurd huniform) (absurd hwindow)

namespace Generator

open Site

variable {σ α β : Type} {w : Setup} {s : σ}

/-- A generator that is ready, whatever it has read, is at the store `s`. -/
def Site.Poised (w : Setup) (s : σ) (site : Site σ) : Prop :=
  (∃ read, site.generator.Ready w read) ∧ site.counters = s

/-- At the store `s` the action of a ready generator ends in one way, whatever the log: it gives a value with `ok`,
or it fails as it may.  The generator is ready afterwards and the store as it was. -/
def Resolves (w : Setup) (s : σ) (x : Action (Site σ) α) (ok : α → Prop) : Prop :=
  ∀ site, site.Poised w s → ∃ r site', x.Ends site r site' ∧ site'.Poised w s ∧
    match r with
    | .ok a => ok a
    | .error e => w.MayFail e

theorem resolves_pure {a : α} {ok : α → Prop} (h : ok a) : Resolves w s (pure a : Action (Site σ) α) ok :=
  fun _ hsite => ⟨_, _, Action.ends_pure a, hsite, h⟩

theorem Resolves.bind {x : Action (Site σ) α} {f : α → Action (Site σ) β} {ok : α → Prop} {ok' : β → Prop}
    (hx : Resolves w s x ok) (hf : ∀ a, ok a → Resolves w s (f a) ok') : Resolves w s (x >>= f) ok' := by
  intro site hsite
  obtain ⟨r, site₁, hends, hsite₁, hr⟩ := hx site hsite
  cases r with
  | error e => exact ⟨_, site₁, hends.bind_error, hsite₁, hr⟩
  | ok a =>
      obtain ⟨r', site₂, hends', hrest⟩ := hf a hr site₁ hsite₁
      exact ⟨r', site₂, hends.bind_ok hends', hrest⟩

theorem resolves_onSampler {x : Action Sampler α} {ok : α → Prop}
    (hx : ∀ sampler : Sampler, sampler.Sound w.settings w.bound → ∃ r sampler', x.Ends sampler r sampler' ∧
      sampler'.Sound w.settings w.bound ∧
        match r with
        | .ok a => ok a
        | .error e => w.MayFail e) : Resolves w s (onSampler x) ok := by
  rintro site ⟨⟨read, hready⟩, hcounters⟩
  obtain ⟨r, sampler', hends, hsound, hr⟩ := hx _ hready.sampler
  have hwithin : (Action.within (·.sampler) (fun sampler g => { g with sampler }) x).Ends site.generator r
      { site.generator with sampler := sampler' } := hends.within
  exact ⟨r, _, hwithin.within, ⟨⟨read, hready.withSampler hsound⟩, hcounters⟩, hr⟩

variable [CounterStore σ]

/-- Reading a count gives the one that is kept or the one that the store shows. -/
theorem resolves_readOnce {kept : Generator → Int} {keep : Int → Generator → Generator} {key : Schema → Label}
    {n : Int} {ok : Int → Prop} (hread : (CounterStore.readCounter (key w.schema)).Ends s (.ok n) s)
    (hkept : ∀ g read, g.Ready w read → kept g ≠ 0 → ok (kept g)) (hok : ok n)
    (hkeep : ∀ g read, g.Ready w read → ∃ read', (keep n g).Ready w read') :
    Resolves w s (readOnce kept keep key : Action (Site σ) Int) ok := by
  rintro site ⟨⟨read, hready⟩, rfl⟩
  unfold readOnce
  by_cases h : kept site.generator ≠ 0
  · refine ⟨.ok (kept site.generator), site, Action.Ends.bind_ok (Action.ends_look _) ?_,
      ⟨⟨read, hready⟩, rfl⟩, hkept _ _ hready h⟩
    rw [if_pos h]
    exact Action.ends_pure _
  · have hcount : (onCounters (CounterStore.readCounter (key site.generator.schema))).Ends site (.ok n) site := by
      rw [hready.schema]
      exact hread.within
    have hkeeps : (onGenerator (Action.change (keep n)) : Action (Site σ) Unit).Ends site (.ok ())
        { site with generator := keep n site.generator } := (Action.ends_change _).within
    refine ⟨.ok n, { site with generator := keep n site.generator }, Action.Ends.bind_ok (Action.ends_look _) ?_,
      ⟨hkeep _ _ hready, rfl⟩, hok⟩
    rw [if_neg h]
    exact hcount.bind_ok (hkeeps.bind_ok (Action.ends_pure n))

/-! ### Steps of a scan -/

section steps

variable {stored : Int} (hshows : CounterStore.Shows w.schema w.total stored s)

include hshows

theorem resolves_totalCount : Resolves w s (totalCount : Action (Site σ) Int) fun n => n = w.total := by
  rw [totalCount_eq]
  exact resolves_readOnce hshows.total (fun g _ hready hne => hready.total.resolve_left hne) rfl
    fun g read hready => ⟨read, hready.withTotal⟩

theorem resolves_storedCount : Resolves w s (storedCount : Action (Site σ) Int) fun _ => True := by
  rw [storedCount_eq]
  exact resolves_readOnce hshows.stored (fun _ _ _ _ => trivial) trivial
    fun g read hready => ⟨stored, hready.withStored stored⟩

variable (htotal : 0 < w.total) (hcovers : w.Covers)

include htotal hcovers

theorem resolves_distributedIndex [Powers] : Resolves w s (distributedIndex : Action (Site σ) Int) fun index =>
    w.settings.distribution = .uniform → 0 ≤ index ∧ index < w.total := by
  unfold distributedIndex
  refine (resolves_totalCount hshows).bind ?_
  rintro total rfl
  refine (resolves_storedCount hshows).bind fun stored _ => resolves_onSampler fun sampler hsound => ?_
  obtain ⟨r, sampler', hends⟩ := Sampler.sample_determined w.total stored sampler
  have hsample := hends.of_ensures (Sampler.sample_ensures hsound w.total stored)
  refine ⟨r, sampler', hends, ?_⟩
  cases r with
  | ok index => exact ⟨hsample.1, fun huniform => hsample.2 huniform hcovers.total⟩
  | error e =>
      obtain ⟨hsound', ⟨hempty, _⟩ | ⟨hbound, hn⟩⟩ := hsample
      · exact absurd htotal (Int.not_lt.mpr hempty)
      · exact ⟨hsound', Or.inl fun huniform => absurd (hbound huniform) (Int.not_lt.mpr hcovers.total), hn⟩

/-- Where the index is drawn uniformly it can be written, as the number of all documents can. -/
theorem resolves_distributedDocId [Powers] :
    Resolves w s (distributedDocId : Action (Site σ) String) fun _ => True := by
  unfold distributedDocId
  refine (resolves_distributedIndex hshows htotal hcovers).bind fun index hindex => ?_
  rcases Numeral.writeInteger_cases index with ⟨hshort, hwrite⟩ | ⟨hlong, hwrite⟩
  · rw [hwrite]
    exact fun site hsite => ⟨_, site, Action.ends_ofExcept _, hsite, trivial⟩
  · rw [hwrite]
    have hskewed : w.settings.distribution ≠ .uniform := by
      intro huniform
      obtain ⟨h0, hlt⟩ := hindex huniform
      have hw := hshows.isWritable_total
      unfold Numeral.IsWritable at hw hlong
      generalize Nat.pow 10 Numeral.maxDigits = bound at hw hlong
      omega
    exact fun site hsite => ⟨_, site, Action.ends_ofExcept _, hsite, Or.inl hskewed, .unwritable, rfl⟩

end steps

omit [CounterStore σ] in
theorem resolves_draw {f : RandomSource → Except NumberError Int × RandomSource} {ok : Int → Prop}
    (hf : ∀ source : RandomSource, source.Fair w.bound →
      (∃ z, (f source).1 = .ok z ∧ ok z) ∧ (f source).2.Fair w.bound) :
    Resolves w s (onSampler (Sampler.draw f) : Action (Site σ) Int) ok := by
  refine resolves_onSampler fun sampler hsound => ?_
  obtain ⟨⟨z, hz, hok⟩, hfair⟩ := hf _ hsound.fair
  refine ⟨_, _, Action.ends_step _, hsound.withSource hfair, ?_⟩
  dsimp only
  rw [hz]
  exact hok

omit [CounterStore σ] in
/-- The window of a ready generator is that of its settings. -/
theorem resolves_window_bind {f : Window → Action (Site σ) α} {ok : α → Prop}
    (hf : Resolves w s (f w.settings.window) ok) :
    Resolves w s (Action.look (·.generator.settings.window) >>= f) ok := by
  intro site hsite
  obtain ⟨r, site', hends, hrest⟩ := hf site hsite
  obtain ⟨⟨read, hready⟩, _⟩ := hsite
  refine ⟨r, site', Action.Ends.bind_ok (Action.ends_look _) ?_, hrest⟩
  rw [hready.settings]
  exact hends

omit [CounterStore σ] in
theorem resolves_limit (hcovers : w.Covers) : Resolves w s (limit : Action (Site σ) Int) fun z =>
    w.settings.window.limitMin ≤ z ∧ z ≤ w.settings.window.limitMax :=
  resolves_window_bind (resolves_draw fun _ hfair =>
    Window.draw_fair hfair w.settings.window.limit_le hcovers.limit)

omit [CounterStore σ] in
theorem resolves_offset (hcovers : w.Covers) : Resolves w s (offset : Action (Site σ) Int) fun z =>
    w.settings.window.offsetMin ≤ z ∧ z ≤ w.settings.window.offsetMax :=
  resolves_window_bind (resolves_draw fun _ hfair =>
    Window.draw_fair hfair w.settings.window.offset_le hcovers.offset)

omit [CounterStore σ] in
/-- Only a window with a bound that is too long lets a request be refused. -/
theorem resolves_line {r : Request} (hr : w.settings.window.IsWritable → r.isWritable = true) :
    Resolves w s (Action.ofNumber r.line? : Action (Site σ) String) fun _ => True := by
  by_cases hwritable : r.isWritable = true
  · rw [Request.line?_of_isWritable hwritable]
    exact fun site hsite => ⟨_, site, Action.ends_ofExcept _, hsite, trivial⟩
  · rw [Request.line?_of_not_isWritable hwritable]
    exact fun site hsite => ⟨_, site, Action.ends_ofExcept _, hsite, Or.inr (hwritable ∘ hr), .unwritable, rfl⟩

/-- How the request of a scan comes out hangs on the generator alone. -/
theorem resolves_request_scan [Powers] {stored : Int} (hshows : CounterStore.Shows w.schema w.total stored s)
    (htotal : 0 < w.total) (hcovers : w.Covers) {table : Json.Value} (htable : table.isWritable = true) :
    Resolves w s (Transaction.request table .scan : Action (Site σ) Request) fun r => r.operation = .scan := by
  have hcompiled : Resolves w s (Transaction.compiled table .scan : Action (Site σ) Request) fun r =>
      r.operation = .scan ∧ (w.settings.window.IsWritable → r.isWritable = true) := by
    refine (resolves_distributedDocId hshows htotal hcovers).bind fun startKey _ => ?_
    refine (resolves_limit hcovers).bind fun limit ⟨hlimit, hlimit'⟩ => ?_
    refine (resolves_offset hcovers).bind fun offset ⟨hoffset, hoffset'⟩ => resolves_pure ⟨rfl, fun hwindow => ?_⟩
    have hshort : Numeral.IsWritable limit ∧ Numeral.IsWritable offset :=
      ⟨hwindow.limitMin.of_le_of_le hwindow.limitMax hlimit hlimit',
        hwindow.offsetMin.of_le_of_le hwindow.offsetMax hoffset hoffset'⟩
    simp [Request.isWritable_scan, htable, hshort]
  refine hcompiled.bind fun r ⟨hop, hr⟩ => ?_
  exact (resolves_line hr).bind fun _ _ => resolves_pure hop

omit [CounterStore σ] in
/-- A mix of one item draws it. -/
theorem draw_ends_of_poised (name : String) {weight : Binary64} (hpositive : weight.isPositive = true)
    (hfinite : weight.isFinite = true) {site : Site σ} (hsite : site.Poised w s) :
    ∃ site' : Site σ, (onSource (Mix.draw ⟨(name, weight), []⟩)).Ends site (.ok name) site' ∧
      site'.Poised w s := by
  obtain ⟨⟨read, hready⟩, hcounters⟩ := hsite
  have hdraw : (Mix.draw ⟨(name, weight), []⟩).Ends site.generator.sampler.source (.ok name) _ :=
    Mix.draw_ends_of_single hpositive hfinite _
  have hsampler : (Action.within (·.source) (fun source (sampler : Sampler) => { sampler with source })
      (Mix.draw ⟨(name, weight), []⟩)).Ends site.generator.sampler (.ok name) _ := hdraw.within
  have hgenerator : (Action.within (·.sampler) (fun sampler (g : Generator) => { g with sampler })
      (Action.within (·.source) (fun source (sampler : Sampler) => { sampler with source })
        (Mix.draw ⟨(name, weight), []⟩))).Ends site.generator (.ok name) _ := hsampler.within
  have hsound := hready.sampler.withSource hready.sampler.fair.unit
  exact ⟨_, hgenerator.within, ⟨read, hready.withSampler hsound⟩, hcounters⟩

end Generator

end GeoWorkload
