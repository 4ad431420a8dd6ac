import GeoWorkload.Proofs.Scans
import GeoWorkload.Proofs.WorkerAccounts

/-!
# Workers that scan

What a worker does whose mix draws scans alone, at a store that shows the counts of documents: each turn writes the
request that its generator asks for next and counts it, or fails and writes none (`Worker.Scans.turn_ends_ok`,
`Worker.Scans.turn_ends_error`).  So what it does when it runs alone is told by its generator
(`Worker.Scans.run_ends`).
-/

namespace GeoWorkload

open Generator Generator.Site

/-! ### Transactions -/

theorem Station.onSite_ends {σ α : Type} {x : Action (Site σ) α} (station : Station σ) {r : Except Failure α}
    {site : Site σ} (h : x.Ends ⟨station.generator, station.counters⟩ r site) : (onSite x).Ends station r
      { station with generator := site.generator, counters := site.counters } := by
  unfold onSite
  apply Action.Ends.within
  exact h

namespace Transaction

variable {σ : Type} [CounterStore σ] {table : Json.Value} {op : Operation}
  {site : Generator.Site σ}

theorem run_ends_ok [Powers] (station : Station σ) {t : Trace} (ht : station.documents = .trace t)
    (hwrites : t.refused = []) {r : Request}
    (h : (request table op).Ends ⟨station.generator, station.counters⟩ (.ok r) site) :
    (run table op.name).Ends station (.ok .ok) ⟨site.generator, site.counters, .trace (t.record r)⟩ := by
  refine Action.ends_iff_run.mpr fun log => ?_
  obtain ⟨log', hlog⟩ := Action.ends_iff_run.mp h log
  exact ⟨log', run_of_request_ok ht hwrites hlog⟩

/-- Numbers that fail end the transaction. -/
theorem run_ends_number [Powers] (station : Station σ) {t : Trace} (ht : station.documents = .trace t) {n : NumberError}
    (h : (request table op).Ends ⟨station.generator, station.counters⟩ (.error (.number n)) site) :
    (run table op.name).Ends station (.error (.number n)) ⟨site.generator, site.counters, .trace t⟩ := by
  refine Action.ends_iff_run.mpr fun log => ?_
  obtain ⟨log', hlog⟩ := Action.ends_iff_run.mp h log
  exact ⟨log', run_of_request_error ht hlog⟩

end Transaction

namespace Worker

variable {σ : Type} [CounterStore σ]

/-! ### What a generator asks for -/

/-- Draws from a mix, whatever comes of it, and makes the request of a scan. -/
def nextScan [Powers] (table : Json.Value) (mix : Mix String) : Action (Site σ) Request := do
  let _ ← onSource mix.draw
  Transaction.request table .scan

/-- What the next scan of a generator comes to, and the generator after it. -/
def scanOf [Powers] (table : Json.Value) (mix : Mix String) (counters : σ) (g : Generator) :
    Except Failure Request × Generator :=
  ((nextScan table mix).outcome ⟨g, counters⟩, ((nextScan table mix).after ⟨g, counters⟩).generator)

/-- The requests of a number of scans of a generator, and the failure that ends them if one does. -/
def scansOf [Powers] (table : Json.Value) (mix : Mix String) (counters : σ) :
    (count : Nat) → Generator → List Request × Option Failure
  | 0, _ => ([], none)
  | count + 1, g =>
    match scanOf table mix counters g with
    | (.ok r, g) =>
      let (requests, raised) := scansOf table mix counters count g
      (r :: requests, raised)
    | (.error f, _) => ([], some f)

section scansOf

variable {table : Json.Value} {mix : Mix String} {counters : σ} {g g' : Generator}

theorem scansOf_succ_of_ok [Powers] {r : Request} (h : scanOf table mix counters g = (.ok r, g')) (count : Nat) :
    scansOf table mix counters (count + 1) g =
      (r :: (scansOf table mix counters count g').1, (scansOf table mix counters count g').2) := by
  rw [scansOf, h]

theorem scansOf_succ_of_error [Powers] {f : Failure} (h : scanOf table mix counters g = (.error f, g')) (count : Nat) :
    scansOf table mix counters (count + 1) g = ([], some f) := by
  rw [scansOf, h]

end scansOf

/-- The mix draws scans alone, of a table that can be written, at a store that shows a positive number of all
documents. -/
structure Scans (w : Setup) (counters : σ) (table : Json.Value) (mix : Mix String) : Prop where
  shows : ∃ stored, CounterStore.Shows w.schema w.total stored counters
  total : 0 < w.total
  covers : w.Covers
  writable : table.isWritable = true
  mix : ∃ weight : Binary64, mix = ⟨(Operation.scan.name, weight), []⟩ ∧ weight.isPositive = true ∧
    weight.isFinite = true

variable {w : Setup} {counters : σ} {mix : Mix String} {table : Json.Value} {g g' : Generator} {t : Trace}

/-- The two steps of the next scan: the mix draws a scan, and its request comes out as it is told. -/
theorem Scans.nextScan_ends [Powers] (h : Scans w counters table mix) (hg : ∃ read, g.Ready w read) :
    ∃ site : Site σ, (onSource mix.draw).Ends ⟨g, counters⟩ (.ok Operation.scan.name) site ∧
      (Transaction.request table .scan).Ends site (scanOf table mix counters g).1
        ⟨(scanOf table mix counters g).2, counters⟩ ∧
      (∃ read, (scanOf table mix counters g).2.Ready w read) ∧
      ∀ e, (scanOf table mix counters g).1 = .error e → w.MayFail e := by
  obtain ⟨stored, hshows⟩ := h.shows
  obtain ⟨weight, rfl, hpositive, hfinite⟩ := h.mix
  obtain ⟨site, hdraw, hsite⟩ := draw_ends_of_poised Operation.scan.name hpositive hfinite
    (show (⟨g, counters⟩ : Site σ).Poised w counters from ⟨hg, rfl⟩)
  obtain ⟨r, ⟨g', s⟩, hends, ⟨hready, hs⟩, hr⟩ :=
    resolves_request_scan hshows h.total h.covers h.writable site hsite
  obtain rfl : s = counters := hs
  have hnext : (nextScan table ⟨(Operation.scan.name, weight), []⟩).Ends ⟨g, s⟩ r ⟨g', s⟩ := hdraw.bind_ok hends
  unfold scanOf
  rw [hnext.outcome_eq, hnext.after_eq]
  refine ⟨site, hdraw, hends, hready, ?_⟩
  rintro e rfl
  exact hr

/-! ### Turns -/

section turns

variable {task : Task} (h : Scans w counters task.table mix) (hg : ∃ read, g.Ready w read) (hwrites : t.refused = [])

include h hg hwrites

variable [Powers]

theorem Scans.next_ends_ok {r : Request} (hscan : scanOf task.table mix counters g = (.ok r, g')) :
    (Transaction.next task.table mix).Ends (⟨g, counters, .trace t⟩ : Station σ)
      (.ok (Operation.scan.name, .ok)) ⟨g', counters, .trace (t.record r)⟩ := by
  obtain ⟨site, hdraw, hends, _⟩ := h.nextScan_ends hg
  rw [hscan] at hends
  have hname := Station.onSite_ends ⟨g, counters, .trace t⟩ hdraw
  have hrun : (Transaction.run task.table Operation.scan.name).Ends _ _ _ :=
    Transaction.run_ends_ok ⟨site.generator, site.counters, .trace t⟩ rfl hwrites hends
  unfold Transaction.next
  exact hname.bind_ok (hrun.bind_ok (Action.ends_pure _))

omit hwrites in
theorem Scans.next_ends_error {e : Failure} (hscan : scanOf task.table mix counters g = (.error e, g')) :
    (Transaction.next task.table mix).Ends (⟨g, counters, .trace t⟩ : Station σ)
      (.error e) ⟨g', counters, .trace t⟩ := by
  obtain ⟨site, hdraw, hends, _, hfails⟩ := h.nextScan_ends hg
  rw [hscan] at hends hfails
  obtain ⟨_, n, rfl⟩ := hfails e rfl
  have hname := Station.onSite_ends ⟨g, counters, .trace t⟩ hdraw
  have hrun := Transaction.run_ends_number ⟨site.generator, site.counters, .trace t⟩ rfl hends
  unfold Transaction.next
  exact hname.bind_ok hrun.bind_error

variable {desk : Desk σ} (hstation : desk.station = ⟨g, counters, .trace t⟩)

include hstation

/-- A turn at a trace that takes every line writes the next request and counts it. -/
theorem Scans.turn_ends_ok (done : Nat) {r : Request}
    (hscan : scanOf task.table mix counters g = (.ok r, g')) : (turn task mix done).Ends desk (.ok ())
      { desk with
        station := ⟨g', counters, .trace (t.record r)⟩
        coverage := desk.coverage.add (Coverage.entryName Operation.scan.name .ok) 1 } := by
  have hnext := h.next_ends_ok hg hwrites hscan
  rw [← hstation] at hnext
  unfold turn
  refine Action.Ends.bind_ok (Action.Ends.within hnext) ?_
  exact (Action.ends_change _).bind_ok (Action.ends_log _ _)

omit hwrites in
/-- A turn whose scan fails counts nothing. -/
theorem Scans.turn_ends_error (done : Nat) {e : Failure}
    (hscan : scanOf task.table mix counters g = (.error e, g')) : (turn task mix done).Ends desk (.error e)
      { desk with station := ⟨g', counters, .trace t⟩ } := by
  have hnext := h.next_ends_error (t := t) hg hscan
  rw [← hstation] at hnext
  unfold turn
  exact Action.Ends.bind_error (Action.Ends.within hnext)

end turns

/-! ### Runs -/

/-- What a worker notes of its scans. -/
def notesOf (scans : List Request × Option Failure) : Notes :=
  ⟨List.replicate scans.1.length (Operation.scan.name, .ok), scans.2⟩

/-- What a worker does in its turns is told by its generator. -/
theorem Scans.turns_ends [Powers] {task : Task} (h : Scans w counters task.table mix)
    (hunbounded : ∀ done, task.isOver done = false) (budget done : Nat) (hg : ∃ read, g.Ready w read)
    (hwrites : t.refused = []) {desk : Desk σ} (hstation : desk.station = ⟨g, counters, .trace t⟩)
    (hclear : desk.board.stopped = false) :
    let scans := scansOf task.table mix counters budget g
    ∃ g', (turns task mix budget done).Ends desk (notesOf scans).outcome
      { desk with
        station := ⟨g', counters, .trace (t.recordAll scans.1)⟩
        coverage := desk.coverage.tally (notesOf scans).results } := by
  induction budget generalizing done g t desk with
  | zero =>
      obtain ⟨station, coverage, board⟩ := desk
      obtain rfl : station = ⟨g, counters, .trace t⟩ := hstation
      exact ⟨g, Action.ends_pure ()⟩
  | succ budget ih =>
      have hgoes : (desk.board.stopped || task.isOver done) = false := by rw [hclear, hunbounded]; rfl
      obtain ⟨_, _, _, hg', _⟩ := h.nextScan_ends hg
      rcases hscan : scanOf task.table mix counters g with ⟨e | r, g₁⟩
      · have hturn := h.turn_ends_error hg hstation (done + 1) hscan
        unfold turns
        rw [scansOf_succ_of_error hscan]
        refine ⟨g₁, Action.Ends.bind_ok (Action.ends_look _) ?_⟩
        rw [hgoes, if_neg Bool.false_ne_true]
        exact hturn.bind_error
      · have hturn := h.turn_ends_ok hg hwrites hstation (done + 1) hscan
        rw [hscan] at hg'
        obtain ⟨g', hrest⟩ := ih (done + 1) hg' (show (t.record r).refused = [] from hwrites)
          (show Desk.station { desk with
            station := ⟨g₁, counters, .trace (t.record r)⟩
            coverage := desk.coverage.add (Coverage.entryName Operation.scan.name .ok) 1 } = _ from rfl) hclear
        unfold turns
        rw [scansOf_succ_of_ok hscan]
        refine ⟨g', Action.Ends.bind_ok (Action.ends_look _) ?_⟩
        rw [hgoes, if_neg Bool.false_ne_true]
        exact hturn.bind_ok hrest

/-- Only numbers end the scans of a worker, and none do where indices are drawn uniformly and the bounds of the window
can be written. -/
theorem Scans.mayFail [Powers] (h : Scans w counters table mix) {count : Nat} (hg : ∃ read, g.Ready w read)
    {f : Failure} (hf : (scansOf table mix counters count g).2 = some f) : w.MayFail f := by
  induction count generalizing g with
  | zero => cases hf
  | succ count ih =>
      obtain ⟨_, _, _, hg', hfails⟩ := h.nextScan_ends hg
      rcases hscan : scanOf table mix counters g with ⟨e | r, g₁⟩
      · rw [scansOf_succ_of_error hscan] at hf
        rw [hscan] at hfails
        cases hf
        exact hfails _ rfl
      · rw [scansOf_succ_of_ok hscan] at hf
        rw [hscan] at hg'
        exact ih hg' hf

omit [CounterStore σ] in
theorem report_ends (desk : Desk σ) : report.Ends desk (.ok ())
    { desk with board := { desk.board with coverage := desk.board.coverage.merge desk.coverage } } :=
  Action.ends_change _

/-- A worker whose turns are over leaves its notes on the board. -/
theorem atDesk_ends [Powers] {task : Task} {notes : Notes} {desk desk' : Desk σ}
    (hturns : (turns task mix task.budget 0).Ends desk notes.outcome desk')
    (hcoverage : desk'.coverage = Coverage.tally [] notes.results) :
    (atDesk task mix).Ends desk (.ok ()) { desk' with board := notes.board task desk'.board } := by
  obtain ⟨results, raised⟩ := notes
  unfold atDesk Notes.board
  dsimp only at hcoverage ⊢
  rw [← hcoverage]
  refine Action.Ends.bind_ok hturns.attempt ?_
  cases raised with
  | none =>
      rw [Option.map_none, Option.toList_none, List.append_nil, Option.isSome_none, Bool.or_false]
      exact report_ends desk'
  | some f =>
      rw [Option.map_some, Option.toList_some, Option.isSome_some, Bool.or_true]
      refine (abort_ends task f desk').bind_ok ?_
      exact report_ends _

/-- What a worker does that runs alone is told by its generator, and it leaves the store as it was. -/
theorem Scans.run_ends [Powers] {task : Task} {settings : Settings} {S : Schema}
    {proportions : List (String × Binary64)} (h : Scans w counters task.table mix)
    (hmix : Mix.ofWeights proportions = .ok mix) (hunbounded : ∀ done, task.isOver done = false)
    (hg : ∃ read, (generator settings S task.moment task.worker).Ready w read) (hwrites : t.refused = [])
    {board : Board} (hclear : board.stopped = false) :
    let scans := scansOf task.table mix counters task.budget (generator settings S task.moment task.worker)
    (run task settings S proportions).Ends (⟨counters, .trace t, board⟩ : Crew σ) (.ok ())
      ⟨counters, .trace (t.recordAll scans.1), (notesOf scans).board task board⟩ := by
  intro scans
  obtain ⟨stored, hshows⟩ := h.shows
  have hstation : (Desk.ofCrew (generator settings S task.moment task.worker)
      (⟨counters, .trace t, board⟩ : Crew σ)).station = ⟨_, counters, .trace t⟩ := rfl
  obtain ⟨g', hturns⟩ := h.turns_ends hunbounded task.budget 0 hg hwrites hstation hclear
  have hwork := atDesk_ends hturns rfl
  have hmixed : (Action.ofExcept (Mix.ofWeights proportions)).Ends (⟨counters, .trace t, board⟩ : Crew σ)
      (.ok mix) ⟨counters, .trace t, board⟩ := by
    rw [hmix]
    exact Action.ends_ofExcept _
  unfold run
  refine hmixed.bind_ok (Action.Ends.bind_ok (Action.Ends.within hwork) ?_)
  apply Action.Ends.within
  exact hshows.close

end Worker

end GeoWorkload
