import GeoWorkload.Proofs.SampledIndices
import GeoWorkload.Proofs.Scans
import GeoWorkload.Proofs.WeightedMixes

/-!
# Windows of scans

A scan asks for a limit and an offset of the window that the properties give, in whichever order its bounds stand,
and starts at an index that leaves the distribution its room below the number of all documents
(`Request.ScansWithin`).  What decides this along a run is that the generator keeps the settings and the counts, that
its source is one that the first source leads to, and that its zipfian range, once made, starts at one
(`Sampler.Steady`, `Generator.Site.Scanning`).  Every step of a scan preserves that, whether or not it fails, and so
does every transaction of a run (`Transaction.scans_within`).
-/

namespace GeoWorkload

/-- In such a state the store tells the numbers of all and of the stored documents or fails to tell, and either way
it is in such a state afterwards. -/
structure CounterStore.Tells {σ : Type} [CounterStore σ] (S : Schema) (total stored : Int) (p : σ → Prop) :
    Prop where
  total : Action.Preserves p (readCounter S.totalKey) fun count => count = total
  stored : Action.Preserves p (readCounter S.storedKey) fun count => count = stored

/-- Whatever calls it refuses, a store backed by a memory tells what the memory counts. -/
theorem MemoryBacked.tells {σ : Type} [CounterStore σ] [MemoryBacked σ] {S : Schema} (hS : S.KeysText)
    {m : MemoryStore} {total stored : Int} (htotal : m.Counts S.totalKey total)
    (hstored : m.Counts S.storedKey stored) :
    CounterStore.Tells S total stored fun s : σ => memory s = m := by
  have hread : ∀ {key : Label} {z : Int}, key.IsText → m.Counts key z →
      Action.Preserves (fun s : σ => memory s = m) (CounterStore.readCounter key) fun count => count = z := by
    rintro key z hkey hz s rfl
    exact (readCounter_ensures hkey s).mono (fun _ _ h => ⟨h.2, h.1.unique hz⟩) fun _ _ h => h
  exact ⟨hread (hS .total trivial) htotal, hread (hS .stored trivial) hstored⟩

/-- What a run of scans starts from: the settings and the schema, the two counts, the source that is drawn from and
the states that the counter store may be in. -/
structure ScanSetup (σ : Type) where
  settings : Settings
  schema : Schema
  total : Int
  stored : Int
  origin : RandomSource
  store : σ → Prop

/-- Making the line of a request changes nothing. -/
theorem Request.line?_ensures {σ : Type} (r : Request) (s : σ) : (Action.ofNumber r.line? : Action σ String).Ensures s
    (fun line s' => line = r.line ∧ s' = s) fun _ s' => s' = s := by
  by_cases hr : r.isWritable = true
  · rw [line?_of_isWritable hr]
    exact (Action.ends_ofExcept _).returns ⟨rfl, rfl⟩ |>.mono (fun _ _ h => h) fun _ _ h => h.elim
  · rw [line?_of_not_isWritable hr]
    exact (Action.ends_ofExcept _).ensures rfl

/-- A request adds its line to those of the store or none. -/
theorem DocumentStore.request_ensures (r : Request) (documents : DocumentStore) :
    (request r).Ensures documents
      (fun _ documents' => documents'.lines = documents.lines ∨ documents'.lines = documents.lines ++ [r.line])
      fun _ documents' => documents'.lines = documents.lines := by
  unfold request
  refine Action.ensures_look_bind ?_
  cases documents with
  | bare => exact Action.ensures_log_bind (Action.ensures_pure.mpr (Or.inl rfl))
  | trace t =>
      apply Action.Ensures.within
      unfold Trace.write
      refine (Request.line?_ensures r t).bind ?_ fun _ _ h => congrArg _ (congrArg _ h)
      rintro _ _ ⟨rfl, rfl⟩
      refine Action.ensures_look_bind ?_
      dsimp only [id]
      split
      · exact Action.ensures_change_bind (Action.ensures_log_bind (Action.ensures_pure.mpr (Or.inl rfl)))
      · refine Action.ensures_change_bind (Action.ensures_pure.mpr (Or.inr ?_))
        exact Array.toList_push
  | misdirected kind =>
      refine (Request.line?_ensures r _).bind (fun _ _ h => ?_) fun _ _ h => congrArg lines h
      exact Action.ensures_fail.mpr (congrArg lines h.2)

/-! ### Zipfian draws -/

namespace Zipfian

variable [Powers]

/-- The number that the closed formula has to convert to an integer for the draw `u` is not negative.  The formula is
not used for a single item. -/
def Converts (z : Zipfian) (u : Binary64) : Prop :=
  z.items ≠ 1 → ∀ power, (z.eta * u - z.eta + 1).power z.alpha = .ok power →
    (Binary64.ofInt z.items * power).isNegative = false

variable {z : Zipfian} {s : RandomSource} {r : Int}

theorem offsetOf_nonneg (hitems : 1 ≤ z.items) {u : Binary64} (hmany : z.items ≠ 1) (hu : z.Converts u)
    (hr : z.offsetOf u = .ok r) : 0 ≤ r := by
  unfold offsetOf at hr
  dsimp only at hr
  split at hr
  · cases hr
    exact Int.le_refl 0
  · obtain ⟨half, _, hr⟩ := exists_of_bind_eq_ok hr
    split at hr
    · cases hr
      exact Int.one_nonneg
    · obtain ⟨power, hpower, hr⟩ := exists_of_bind_eq_ok hr
      obtain ⟨offset, hoffset, hr⟩ := exists_of_bind_eq_ok hr
      cases hr
      have h0 := Binary64.nonneg_of_toInteger (hu hmany power hpower) hoffset
      omega

/-- What is drawn from the integers from one on is no less than one. -/
theorem one_le_next {upper : Int} (hupper : 1 ≤ upper) (hz : ofRange 1 upper defaultTheta = .ok z)
    (hs : z.Converts s.unit.1) (hr : (z.next s).1 = .ok r) : 1 ≤ r := by
  obtain ⟨hbase, hitems⟩ := range_of_ofRange hz
  unfold next at hr
  split at hr
  · cases hr
    omega
  · rename_i hmany
    dsimp only at hr
    obtain ⟨offset, hoffset, rfl⟩ : ∃ offset, z.offsetOf s.unit.1 = .ok offset ∧ z.base + offset = r := by
      rcases hoffset : z.offsetOf s.unit.1 with e | offset
      · rw [hoffset] at hr
        cases hr
      · rw [hoffset] at hr
        exact ⟨offset, rfl, Except.ok.inj hr⟩
    have h0 := offsetOf_nonneg (by omega) hmany hs hoffset
    omega

end Zipfian

/-! ### Draws of the window -/

namespace RandomSource

variable {origin s : RandomSource}

theorem leads_draw (h : origin.Leads s) (least greatest : Int) : origin.Leads (Window.draw least greatest s).2 := by
  unfold Window.draw
  split
  · exact h
  · exact h.index _

/-- A proper source draws an integer of the interval. -/
theorem Proper.draw_range (h : s.Proper) {least greatest r : Int} (hle : least ≤ greatest)
    (hr : (Window.draw least greatest s).1 = .ok r) : least ≤ r ∧ r ≤ greatest := by
  unfold Window.draw at hr
  split at hr
  · cases hr
    omega
  · unfold between at hr
    dsimp only at hr
    rcases hbelow : (s.below (greatest - least + 1)).1 with e | offset
    · rw [hbelow] at hr
      cases hr
    · rw [hbelow] at hr
      obtain rfl : least + offset = r := Except.ok.inj hr
      have hrange := h.below_range (by omega) hbelow
      omega

end RandomSource

/-- A mix draws one of its items, from a source that the first one leads to. -/
theorem Mix.preserves_draw {α : Type} (mix : Mix α) (origin : RandomSource) :
    Action.Preserves origin.Leads mix.draw fun a => a ∈ mix.items := by
  unfold draw
  dsimp only
  split
  · exact Action.preserves_fail _
  · split
    · exact Action.preserves_fail _
    · intro s hs
      exact Action.ensures_step.mpr ⟨hs.number, mix.pick_mem _⟩

/-! ### Samplers -/

/-- An index below a population that leaves the distribution its room: a whole window if the newest documents are
drawn a window back. -/
def Distribution.Leaves (w : Window) (population : Int) : Distribution → Int → Prop
  | uniform, index => 0 ≤ index ∧ index < population
  | zipfian, index => index ≤ population - 1
  | latest, index => index + (w.limitMax + w.offsetMax) ≤ population - 1

section sampler

variable {σ : Type} {w : ScanSetup σ}

variable [Powers]

/-- The sampler is as the setup has it, its source is one that the first source leads to and its zipfian range, if it
has one, is that of the stored documents. -/
structure Sampler.Steady (w : ScanSetup σ) (s : Sampler) : Prop where
  distribution : s.distribution = w.settings.distribution
  window : s.window = w.settings.window
  theta : s.theta = defaultTheta
  leads : w.origin.Leads s.source
  zipfian : ∀ z, s.zipfian = some z → Zipfian.ofRange 1 (rangeFor w.stored) defaultTheta = .ok z

/-- Every number of the source lies from zero to below one, and what a zipfian range of the stored documents converts
for it is not negative. -/
structure ScanSetup.Draws (w : ScanSetup σ) : Prop where
  proper : w.origin.Proper
  converts : ∀ z, Zipfian.ofRange 1 (Sampler.rangeFor w.stored) defaultTheta = .ok z →
    ∀ s, w.origin.Leads s → z.Converts s.unit.1

namespace Sampler

theorem steady_make (w : ScanSetup σ) :
    (make w.settings.distribution w.settings.window defaultTheta w.origin).Steady w :=
  ⟨rfl, rfl, rfl, .refl, fun _ hz => absurd hz (Option.some_ne_none _).symm⟩

theorem Steady.withSource {s : Sampler} (h : s.Steady w) {source : RandomSource} (hs : w.origin.Leads source) :
    Steady w { s with source } :=
  ⟨h.distribution, h.window, h.theta, hs, h.zipfian⟩

theorem preserves_draw {α : Type} {f : RandomSource → Except NumberError α × RandomSource} {ok : α → Prop}
    (hleads : ∀ s, w.origin.Leads s → w.origin.Leads (f s).2)
    (hok : ∀ s, w.origin.Leads s → ∀ a, (f s).1 = .ok a → ok a) : Action.Preserves (Steady w) (draw f) ok := by
  intro s hs
  have hsource := hleads _ hs.leads
  have hvalue := hok _ hs.leads
  unfold draw
  refine Action.ensures_step.mpr ?_
  dsimp only
  generalize f s.source = r at hsource hvalue ⊢
  obtain ⟨_ | a, source⟩ := r
  · exact hs.withSource hsource
  · exact ⟨hs.withSource hsource, hvalue a rfl⟩

theorem preserves_uniform (h : w.Draws) (population : Int) :
    Action.Preserves (Steady w) (uniform population) fun r => 0 ≤ r ∧ r < population := by
  unfold uniform
  split
  · exact Action.preserves_fail _
  · apply preserves_draw
    · exact fun s hs => hs.index population
    · exact fun s hs r hr => (h.proper.of_leads hs).below_range (by omega) hr

theorem preserves_zipfianFor : Action.Preserves (Steady w) (zipfianFor w.stored) fun z =>
    Zipfian.ofRange 1 (rangeFor w.stored) defaultTheta = .ok z := by
  intro s hs
  unfold zipfianFor
  refine Action.ensures_look_bind ?_
  split
  · rename_i z hz
    exact Action.ensures_pure.mpr ⟨hs, hs.zipfian z hz⟩
  · refine Action.ensures_look_bind ?_
    rw [hs.theta]
    have hrange : (Action.ofExcept (Zipfian.ofRange 1 (rangeFor w.stored) defaultTheta)
        : Action Sampler Zipfian).Ensures s
        (fun z s' => s' = s ∧ Zipfian.ofRange 1 (rangeFor w.stored) defaultTheta = .ok z) fun _ s' => s' = s :=
      Action.ensures_ofExcept.mpr ⟨fun z hz => ⟨rfl, hz⟩, fun _ _ => rfl⟩
    refine hrange.bind ?_ ?_
    · rintro z s ⟨rfl, hz⟩
      refine Action.ensures_change_bind (Action.ensures_log_bind (Action.ensures_pure.mpr ⟨?_, hz⟩))
      refine ⟨hs.distribution, hs.window, hs.theta, hs.leads, ?_⟩
      intro z' hz'
      obtain rfl : z = z' := Option.some.inj hz'
      exact hz
    · rintro e s' rfl
      exact hs

theorem preserves_skewed (h : w.Draws) :
    Action.Preserves (Steady w) (skewed w.stored) fun r => 1 ≤ r := by
  apply preserves_zipfianFor.bind
  intro z hz
  apply preserves_draw
  · exact fun s hs => RandomSource.leads_next hs z
  · exact fun s hs r hr => Zipfian.one_le_next (by unfold rangeFor; omega) hz (h.converts z hz s hs) hr

/-- An index that is picked leaves the distribution its room. -/
theorem preserves_sample (h : w.Draws) (population : Int) :
    Action.Preserves (Steady w) (sample population w.stored)
      (w.settings.distribution.Leaves w.settings.window population) := by
  intro s hs
  unfold sample
  refine Action.ensures_look_bind ?_
  simp only [id, hs.distribution, hs.window]
  cases w.settings.distribution with
  | uniform => exact preserves_uniform h population s hs
  | zipfian =>
      refine (preserves_skewed h s hs).bind ?_ fun _ _ h => h
      rintro r s' ⟨hs', hr⟩
      refine Action.ensures_pure.mpr ⟨hs', ?_⟩
      show population - r ≤ population - 1
      omega
  | latest =>
      refine (preserves_skewed h s hs).bind ?_ fun _ _ h => h
      rintro r s' ⟨hs', hr⟩
      refine Action.ensures_pure.mpr ⟨hs', ?_⟩
      show population - r - _ + _ ≤ population - 1
      omega

end Sampler

/-! ### Generators -/

namespace Generator

open Site

/-- The generator has the settings and the schema of the setup, has read no other counts than its store tells and
draws steadily. -/
structure Steady (w : ScanSetup σ) (g : Generator) : Prop where
  settings : g.settings = w.settings
  schema : g.schema = w.schema
  total : g.totalRead = 0 ∨ g.totalRead = w.total
  stored : g.storedRead = 0 ∨ g.storedRead = w.stored
  sampler : g.sampler.Steady w

/-- Such a generator is at a store in a state of the setup. -/
structure Site.Scanning (w : ScanSetup σ) (site : Site σ) : Prop where
  generator : site.generator.Steady w
  counters : w.store site.counters

theorem steady_make (w : ScanSetup σ) : (make w.settings w.schema w.origin).Steady w :=
  ⟨rfl, rfl, Or.inl rfl, Or.inl rfl, Sampler.steady_make w⟩

variable {α : Type} {ok : α → Prop}

theorem preserves_onGenerator {x : Action Generator α} (hx : Action.Preserves (Steady w) x ok) :
    Action.Preserves (Scanning w) (onGenerator x : Action (Site σ) α) ok := by
  apply hx.within
  · exact fun site h => h.generator
  · exact fun site g h hg => ⟨hg, h.counters⟩

theorem preserves_onCounters {x : Action σ α} (hx : Action.Preserves w.store x ok) :
    Action.Preserves (Scanning w) (onCounters x) ok := by
  apply hx.within
  · exact fun site h => h.counters
  · exact fun site s h hs => ⟨h.generator, hs⟩

theorem preserves_onSampler {x : Action Sampler α} (hx : Action.Preserves (Sampler.Steady w) x ok) :
    Action.Preserves (Scanning w) (onSampler x : Action (Site σ) α) ok := by
  apply preserves_onGenerator
  apply hx.within
  · exact fun g h => h.sampler
  · exact fun g sampler h hs => ⟨h.settings, h.schema, h.total, h.stored, hs⟩

theorem preserves_onSource {x : Action RandomSource α} (hx : Action.Preserves w.origin.Leads x ok) :
    Action.Preserves (Scanning w) (onSource x : Action (Site σ) α) ok := by
  apply preserves_onSampler
  apply hx.within
  · exact fun s h => h.leads
  · exact fun s source h hs => h.withSource hs

theorem preserves_window_bind {f : Window → Action (Site σ) α}
    (hf : Action.Preserves (Scanning w) (f w.settings.window) ok) :
    Action.Preserves (Scanning w) (Action.look (·.generator.settings.window) >>= f) ok := by
  intro site h
  refine Action.ensures_look_bind ?_
  rw [h.generator.settings]
  exact hf site h

theorem preserves_limit (h : w.Draws) : Action.Preserves (Scanning w) (limit : Action (Site σ) Int) fun z =>
    w.settings.window.limitMin ≤ z ∧ z ≤ w.settings.window.limitMax := by
  apply preserves_window_bind
  apply preserves_onSampler
  apply Sampler.preserves_draw
  · exact fun s hs => RandomSource.leads_draw hs _ _
  · exact fun s hs z hz => (h.proper.of_leads hs).draw_range w.settings.window.limit_le hz

theorem preserves_offset (h : w.Draws) : Action.Preserves (Scanning w) (offset : Action (Site σ) Int) fun z =>
    w.settings.window.offsetMin ≤ z ∧ z ≤ w.settings.window.offsetMax := by
  apply preserves_window_bind
  apply preserves_onSampler
  apply Sampler.preserves_draw
  · exact fun s hs => RandomSource.leads_draw hs _ _
  · exact fun s hs z hz => (h.proper.of_leads hs).draw_range w.settings.window.offset_le hz

variable [CounterStore σ]

/-- What is read once is what the store tells. -/
theorem preserves_readOnce {kept : Generator → Int} {keep : Int → Generator → Generator} {key : Schema → Label}
    {n : Int} (hread : Action.Preserves w.store (CounterStore.readCounter (key w.schema)) fun count => count = n)
    (hkept : ∀ g, Steady w g → kept g = 0 ∨ kept g = n) (hkeep : ∀ g, Steady w g → Steady w (keep n g)) :
    Action.Preserves (Scanning w) (readOnce kept keep key : Action (Site σ) Int) fun count => count = n := by
  intro site h
  unfold readOnce
  refine Action.ensures_look_bind ?_
  split
  · rename_i hne
    exact Action.ensures_pure.mpr ⟨h, (hkept _ h.generator).resolve_left hne⟩
  · rw [h.generator.schema]
    refine (preserves_onCounters hread site h).bind ?_ fun _ _ h => h
    rintro count site' ⟨h', rfl⟩
    have hkeeps : (onGenerator (Action.change (keep count)) : Action (Site σ) Unit).Returns site'
        fun _ site => site.Scanning w :=
      Action.Ensures.within (Action.ensures_change.mpr ⟨hkeep _ h'.generator, h'.counters⟩)
    refine hkeeps.bind ?_ fun _ _ h => h.elim
    exact fun _ _ h => Action.ensures_pure.mpr ⟨h, rfl⟩

section request

variable (htells : CounterStore.Tells w.schema w.total w.stored w.store) (h : w.Draws)

include htells

theorem preserves_totalCount :
    Action.Preserves (Scanning w) (totalCount : Action (Site σ) Int) fun n => n = w.total := by
  rw [totalCount_eq]
  apply preserves_readOnce htells.total
  · exact fun g hg => hg.total
  · exact fun g hg => ⟨hg.settings, hg.schema, Or.inr rfl, hg.stored, hg.sampler⟩

theorem preserves_storedCount :
    Action.Preserves (Scanning w) (storedCount : Action (Site σ) Int) fun n => n = w.stored := by
  rw [storedCount_eq]
  apply preserves_readOnce htells.stored
  · exact fun g hg => hg.stored
  · exact fun g hg => ⟨hg.settings, hg.schema, hg.total, Or.inr rfl, hg.sampler⟩

include h

theorem preserves_distributedIndex : Action.Preserves (Scanning w) (distributedIndex : Action (Site σ) Int)
    (w.settings.distribution.Leaves w.settings.window w.total) := by
  unfold distributedIndex
  apply (preserves_totalCount htells).bind
  rintro _ rfl
  apply (preserves_storedCount htells).bind
  rintro _ rfl
  exact preserves_onSampler (Sampler.preserves_sample h w.total)

theorem preserves_distributedDocId : Action.Preserves (Scanning w) (distributedDocId : Action (Site σ) String)
    fun id => ∃ index, id = Numeral.decimal index ∧
      w.settings.distribution.Leaves w.settings.window w.total index := by
  unfold distributedDocId
  apply (preserves_distributedIndex htells h).bind
  intro index hindex
  apply Action.preserves_ofExcept
  intro id hid
  rcases Numeral.writeInteger_cases index with ⟨_, hwrite⟩ | ⟨_, hwrite⟩
  · rw [hwrite] at hid
    cases hid
    exact ⟨index, rfl, hindex⟩
  · rw [hwrite] at hid
    cases hid

end request

end Generator

/-! ### Requests -/

/-- A scan with a limit and an offset of the window that starts at an index below the total: with a uniform
distribution at one that is not negative, and with the latest documents at one that has room for both. -/
def Request.ScansWithin (w : Window) (d : Distribution) (total : Int) : Request → Prop
  | .scan _ startKey limit offset => ∃ index, startKey = Numeral.decimal index ∧
      w.limitMin ≤ limit ∧ limit ≤ w.limitMax ∧ w.offsetMin ≤ offset ∧ offset ≤ w.offsetMax ∧
      match d with
      | .uniform => 0 ≤ index ∧ index < total
      | .zipfian => index ≤ total - 1
      | .latest => index + limit + offset ≤ total - 1
  | .predicate .. => False

namespace Transaction

variable [CounterStore σ]

open Generator

theorem preserves_compiled_scan (htells : CounterStore.Tells w.schema w.total w.stored w.store) (h : w.Draws)
    (table : Json.Value) :
    Action.Preserves (Site.Scanning w) (compiled table .scan : Action (Site σ) Request)
      (Request.ScansWithin w.settings.window w.settings.distribution w.total) := by
  unfold compiled
  apply (preserves_distributedDocId htells h).bind
  rintro _ ⟨index, rfl, hindex⟩
  apply (preserves_limit h).bind
  rintro limit ⟨hlimit, hlimit'⟩
  apply (preserves_offset h).bind
  rintro offset ⟨hoffset, hoffset'⟩
  apply Action.preserves_pure
  refine ⟨index, rfl, hlimit, hlimit', hoffset, hoffset', ?_⟩
  cases hd : w.settings.distribution with
  | uniform =>
      rw [hd] at hindex
      exact hindex
  | zipfian =>
      rw [hd] at hindex
      exact hindex
  | latest =>
      rw [hd] at hindex
      have hroom : index + (_ + _) ≤ w.total - 1 := hindex
      show index + limit + offset ≤ w.total - 1
      omega

/-! ### Runs -/

/-- The generator scans at its store, and the lines that were added to the given ones are those of scans within the
window. -/
structure Scanned (w : ScanSetup σ) (lines : List String) (station : Station σ) : Prop where
  site : (⟨station.generator, station.counters⟩ : Generator.Site σ).Scanning w
  written : ∃ requests : List Request, station.documents.lines = lines ++ requests.map Request.line ∧
    ∀ r ∈ requests, r.ScansWithin w.settings.window w.settings.distribution w.total

variable {α : Type} {ok : α → Prop} {lines : List String} {table : Json.Value}

omit [CounterStore σ] in
theorem preserves_onSite {x : Action (Generator.Site σ) α} (hx : Action.Preserves (Site.Scanning w) x ok) :
    Action.Preserves (Scanned w lines) (Station.onSite x) ok := by
  apply hx.within
  · exact fun station h => h.site
  · exact fun station site h hs => ⟨hs, h.written⟩

omit [CounterStore σ] in
theorem preserves_onDocuments {r : Request}
    (hr : r.ScansWithin w.settings.window w.settings.distribution w.total) :
    Action.Preserves (Scanned w lines) (Station.onDocuments (DocumentStore.request r) : Action (Station σ) Status)
      fun _ => True := by
  intro station h
  refine Action.Ensures.within ((DocumentStore.request_ensures r station.documents).mono ?_ ?_)
  · rintro _ documents (hlines | hlines)
    · exact ⟨⟨h.site, by rw [hlines]; exact h.written⟩, trivial⟩
    · obtain ⟨requests, hwritten, hwithin⟩ := h.written
      refine ⟨⟨h.site, requests ++ [r], ?_, ?_⟩, trivial⟩
      · rw [hlines, hwritten]
        simp
      · intro r' hr'
        rcases List.mem_append.mp hr' with hold | hnew
        · exact hwithin r' hold
        · rw [List.mem_singleton.mp hnew]
          exact hr
  · intro _ documents hlines
    exact ⟨h.site, by rw [hlines]; exact h.written⟩

section run

variable (htells : CounterStore.Tells w.schema w.total w.stored w.store) (h : w.Draws)

include htells h

/-- A scan writes a line of a scan within the window or none. -/
theorem preserves_run_scan :
    Action.Preserves (Scanned w lines) (run table Operation.scan.name : Action (Station σ) Status) fun _ => True := by
  have hperform : Action.Preserves (Scanned w lines) (perform table .scan : Action (Station σ) Status)
      fun _ => True := by
    rw [perform_eq]
    apply (preserves_onSite (preserves_compiled_scan htells h table)).bind
    exact fun r hr => preserves_onDocuments hr
  unfold run dispatch
  rw [Operation.ofName?_name]
  apply hperform.attempt.bind
  exact fun r _ => preserves_settle _ _ r

theorem preserves_next {mix : Mix String} (hmix : ∀ name ∈ mix.items, name = Operation.scan.name) :
    Action.Preserves (Scanned w lines) (next table mix : Action (Station σ) (String × Status)) fun _ => True := by
  unfold next
  apply (preserves_onSite (preserves_onSource (mix.preserves_draw w.origin))).bind
  intro name hname
  obtain rfl := hmix name hname
  apply (preserves_run_scan htells h).bind
  exact fun _ _ => Action.preserves_pure trivial

end run

end Transaction

end sampler

/-- The bounds that properties give of the limits and of the offsets, in the order in which they stand there. -/
theorem Property.exists_of_window {props : Json.Members} {w : Window} (h : window props = .ok w) :
    ∃ limit limit' offset offset', integer props "geo_querylimit_min" 10 = .ok limit ∧
      integer props "geo_querylimit_max" 100 = .ok limit' ∧ integer props "geo_offset_min" 10 = .ok offset ∧
      integer props "geo_offset_max" 100 = .ok offset' ∧ w = .ofBounds limit limit' offset offset' := by
  obtain ⟨limit, hlimit, h⟩ := exists_of_bind_eq_ok h
  obtain ⟨limit', hlimit', h⟩ := exists_of_bind_eq_ok h
  obtain ⟨offset, hoffset, h⟩ := exists_of_bind_eq_ok h
  obtain ⟨offset', hoffset', h⟩ := exists_of_bind_eq_ok h
  cases h
  exact ⟨limit, limit', offset, offset', hlimit, hlimit', hoffset, hoffset', rfl⟩

namespace Transaction

variable {σ : Type} [CounterStore σ] {p : σ → Prop} {S : Schema} {total stored : Int} {props : Json.Members}
  {settings : Settings} {warnings : List LogRecord}

/-- However many transactions are carried out that are all scans, by a fresh generator with settings that properties
give, at a store that tells the counts of documents: every line that is written is that of a scan within the window
that the properties give.  The numbers of the source are to lie from zero to below one, and those that a zipfian draw
has to convert to integers not below zero. -/
theorem scans_within [Powers] (hprops : Settings.ofProperties props = (.ok settings, warnings))
    (htells : CounterStore.Tells S total stored p) {counters : σ} (hcounters : p counters) {origin : RandomSource}
    (hproper : origin.Proper)
    (hconverts : ∀ z, Zipfian.ofRange 1 (Sampler.rangeFor stored) defaultTheta = .ok z →
      ∀ s, origin.Leads s → z.Converts s.unit.1)
    {mix : Mix String} (hmix : ∀ name ∈ mix.items, name = Operation.scan.name) (table : Json.Value)
    (documents : DocumentStore) (n : Nat) :
    ∃ limit limit' offset offset', Property.integer props "geo_querylimit_min" 10 = .ok limit ∧
      Property.integer props "geo_querylimit_max" 100 = .ok limit' ∧
      Property.integer props "geo_offset_min" 10 = .ok offset ∧
      Property.integer props "geo_offset_max" 100 = .ok offset' ∧
      (Action.times n (next table mix).attempt).Returns ⟨.make settings S origin, counters, documents⟩
        fun _ station => ∃ requests : List Request,
          station.documents.lines = documents.lines ++ requests.map Request.line ∧
          ∀ r ∈ requests, r.ScansWithin (.ofBounds limit limit' offset offset') settings.distribution total := by
  obtain ⟨hwindow, _, _⟩ := Settings.of_ofProperties hprops
  obtain ⟨limit, limit', offset, offset', hlimit, hlimit', hoffset, hoffset', heq⟩ :=
    Property.exists_of_window hwindow
  refine ⟨limit, limit', offset, offset', hlimit, hlimit', hoffset, hoffset', ?_⟩
  rw [← heq]
  let w : ScanSetup σ := ⟨settings, S, total, stored, origin, p⟩
  have hstart : Scanned w documents.lines ⟨.make settings S origin, counters, documents⟩ :=
    ⟨⟨Generator.steady_make w, hcounters⟩, [], by simp, by simp⟩
  have hdraws : w.Draws := ⟨hproper, hconverts⟩
  have hnext : Action.Preserves (Scanned w documents.lines) (next table mix) fun _ => True :=
    preserves_next htells hdraws hmix
  exact (hnext.times_attempt n _ hstart).mono (fun _ _ h => h.written) fun _ _ h => h

/-- Scans from the newest documents on, the bounds of the limit the wrong way round. -/
def newestScans : Json.Members :=
  [("geo_scan", .int 1), ("geo_request_distribution", .string "Latest"), ("geo_querylimit_min", .string "3"),
    ("geo_querylimit_max", .int 1), ("geo_offset_min", .string " 2"), ("geo_offset_max", .int 2)]

/-- Four scans at a seeded store that counts eight documents and five stored ones, so that one of four integers is drawn
for each.  The third one starts below zero, since it leaves room for a whole window below the oldest of the four. -/
theorem scans_within_newestScans :
    letI := Powers.listed Sampler.fourItemPowers
    let settings : Settings :=
      { window := .ofBounds 3 1 2 2, distribution := .latest, proportions := [(.scan, 1)] }
    let counters := (do
      CounterStore.seedCounters .incidents 8 0
      CounterStore.set Schema.incidents.storedKey "5" : Action MemoryStore Unit).after MemoryStore.empty
    let origin := RandomSource.ofDraws Sampler.fourBranches
    let mix : Mix String := ⟨(Operation.scan.name, 1), []⟩
    let scans := Action.times 4 (next (.string "usertable") mix).attempt
    let station : Station MemoryStore := ⟨.make settings .incidents origin, counters, .trace .empty⟩
    Settings.ofProperties newestScans = (.ok settings, []) ∧
      CounterStore.Tells .incidents 8 5 (fun m : MemoryStore => m = counters) ∧ origin.Proper ∧
      (∀ z, Zipfian.ofRange 1 (Sampler.rangeFor 5) defaultTheta = .ok z →
        ∀ s, origin.Leads s → z.Converts s.unit.1) ∧
      (∀ name ∈ mix.items, name = Operation.scan.name) ∧
      (scans.after station).documents.lines =
        [Request.line (.scan (.string "usertable") "1" 3 2), Request.line (.scan (.string "usertable") "2" 2 2),
          Request.line (.scan (.string "usertable") "-1" 1 2), Request.line (.scan (.string "usertable") "0" 3 2)] ∧
      scans.Returns station fun _ station => ∃ requests : List Request,
        station.documents.lines = requests.map Request.line ∧
        ∀ r ∈ requests, r.ScansWithin (.ofBounds 3 1 2 2) .latest 8 := by
  intro settings counters origin mix scans station
  have hsettings : Settings.ofProperties newestScans = (.ok settings, []) := by decide +kernel
  have htotal : counters.Counts Schema.incidents.totalKey 8 := ⟨"8", by decide +kernel, by decide +kernel⟩
  have hstored : counters.Counts Schema.incidents.storedKey 5 := ⟨"5", by decide +kernel, by decide +kernel⟩
  have htells : CounterStore.Tells .incidents 8 5 (fun m : MemoryStore => m = counters) :=
    MemoryBacked.tells Schema.keysDistinct_incidents.keysText htotal hstored
  have hconverts : ∀ z, @Zipfian.ofRange (Powers.listed Sampler.fourItemPowers) 1 (Sampler.rangeFor 5) defaultTheta =
      .ok z → ∀ s, origin.Leads s → @Zipfian.Converts (Powers.listed Sampler.fourItemPowers) z s.unit.1 := by
    intro z hz s hs _ power hpower
    obtain ⟨power', hpower', _, hsign⟩ := Sampler.exists_power_fourItems z hz s hs
    cases hpower'.symm.trans hpower
    exact hsign
  have hmix : ∀ name ∈ mix.items, name = Operation.scan.name := by
    simp [mix, Mix.items, Mix.toList]
  refine ⟨hsettings, htells, Sampler.proper_fourBranches, hconverts, hmix, by decide +kernel, ?_⟩
  obtain ⟨limit, limit', offset, offset', hlimit, hlimit', hoffset, hoffset', hrun⟩ :=
    @scans_within _ _ _ _ _ _ _ _ _ (Powers.listed Sampler.fourItemPowers) hsettings htells _ rfl _
      Sampler.proper_fourBranches hconverts _ hmix (.string "usertable") (.trace .empty) 4
  cases hlimit
  cases hlimit'
  cases hoffset
  cases hoffset'
  exact hrun

end Transaction

end GeoWorkload
