import GeoWorkload.Proofs.Shifts
import GeoWorkload.Proofs.Slices
import GeoWorkload.Proofs.StoredSampling
import Mathlib.Algebra.BigOperators.Group.Finset.Piecewise
import Mathlib.Data.Fintype.Fin

/-!
# Shifts that scan

Workers that scan at a store that shows the counts of documents do not get in each other's way.  What a worker has
written at any time is the beginning of what it writes when it works alone (`Seated`), which is kept by each of its
steps and by those of all others; a worker is stopped short only where a failure ends one that works alone as well.
So the lines of a shift and what it counts do not hang on the order of the turns (`Shift.run_scans`).
-/

namespace GeoWorkload

/-! ### Workers in their seats -/

namespace Post

/-- The operation of a worker is the scan, of a table that can be written as every text can, it is asked for at least
one, and its time is never up. -/
structure OnlyScans (post : Post) : Prop where
  weight : ∃ weight : Binary64, weight.isFinite = true ∧
    (post.proportions.filter fun item => item.2.isPositive) = [(Operation.scan.name, weight)]
  table : post.task.table.isWritable = true
  operations : 1 ≤ post.task.operations
  unbounded : ∀ done, post.task.isOver done = false

/-- What the generator of a worker works with, at a store with a total number of documents. -/
def setup (post : Post) (S : Schema) (total : Int) : Setup where
  settings := post.settings
  schema := S
  bound := max total (max (post.settings.window.limitMax - post.settings.window.limitMin + 1)
    (post.settings.window.offsetMax - post.settings.window.offsetMin + 1))
  total := total

variable {σ : Type} [CounterStore σ]

/-- The requests that a worker makes when it works alone, and the failure that ends it if one does. -/
def requests [Powers] (post : Post) (S : Schema) (counters : σ) : List Request × Option Failure :=
  Worker.scansOf post.task.table post.mix counters post.task.budget (Shift.firstGenerator post S)

variable {post : Post} {S : Schema} {total stored : Int} {counters : σ}

omit [CounterStore σ] in
theorem covers_setup (post : Post) (S : Schema) (total : Int) : (post.setup S total).Covers :=
  ⟨Int.le_max_left _ _, Int.le_trans (Int.le_max_left _ _) (Int.le_max_right _ _),
    Int.le_trans (Int.le_max_right _ _) (Int.le_max_right _ _)⟩

omit [CounterStore σ] in
theorem ready_firstGenerator (post : Post) (S : Schema) (total : Int) :
    ∃ read, (Shift.firstGenerator post S).Ready (post.setup S total) read :=
  ⟨0, Generator.ready_make (RandomSource.fair_ofSeed _ _)⟩

theorem OnlyScans.scans (h : post.OnlyScans) (hshows : CounterStore.Shows S total stored counters)
    (htotal : 0 < total) : Worker.Scans (post.setup S total) counters post.task.table post.mix where
  shows := ⟨stored, hshows⟩
  total := htotal
  covers := covers_setup post S total
  writable := h.table
  mix := by
    obtain ⟨weight, hfinite, hsingle⟩ := h.weight
    have hmem : (Operation.scan.name, weight) ∈ post.proportions.filter fun item => item.2.isPositive := by
      rw [hsingle]
      exact List.mem_cons_self
    have hmixed := post.mixed
    rw [Mix.ofWeights_of_single hsingle] at hmixed
    exact ⟨weight, (Except.ok.inj hmixed).symm, (List.mem_filter.mp hmem).2, hfinite⟩

variable [Powers]

/-- What the crew comes to when a worker works alone and nothing was written before. -/
def alone (post : Post) (S : Schema) (counters : σ) : Crew σ :=
  (Worker.run post.task post.settings S post.proportions).after ⟨counters, .trace .empty, {}⟩

theorem OnlyScans.run_ends (h : post.OnlyScans) (hshows : CounterStore.Shows S total stored counters)
    (htotal : 0 < total) : (Worker.run post.task post.settings S post.proportions).Ends
      (⟨counters, .trace .empty, {}⟩ : Crew σ) (.ok ())
      ⟨counters, .trace (Trace.empty.recordAll (post.requests S counters).1),
        (Worker.notesOf (post.requests S counters)).board post.task {}⟩ :=
  (h.scans hshows htotal).run_ends post.mixed h.unbounded (post.ready_firstGenerator S total) rfl rfl

theorem OnlyScans.alone_eq (h : post.OnlyScans) (hshows : CounterStore.Shows S total stored counters)
    (htotal : 0 < total) : post.alone S counters =
      ⟨counters, .trace (Trace.empty.recordAll (post.requests S counters).1),
        (Worker.notesOf (post.requests S counters)).board post.task {}⟩ :=
  (h.run_ends hshows htotal).after_eq

theorem OnlyScans.alone_lines (h : post.OnlyScans) (hshows : CounterStore.Shows S total stored counters)
    (htotal : 0 < total) :
    (post.alone S counters).documents.lines = (post.requests S counters).1.map Request.line := by
  rw [h.alone_eq hshows htotal]
  exact (Trace.empty.lines_recordAll _).trans (List.nil_append _)

theorem OnlyScans.alone_errors (h : post.OnlyScans) (hshows : CounterStore.Shows S total stored counters)
    (htotal : 0 < total) : (post.alone S counters).board.errors =
      ((post.requests S counters).2.map fun f => (post.task.worker, f)).toList := by
  rw [h.alone_eq hshows htotal]
  exact List.nil_append _

theorem OnlyScans.requests_raised (h : post.OnlyScans) (hshows : CounterStore.Shows S total stored counters)
    (htotal : 0 < total) (hfine : (post.alone S counters).board.errors = []) :
    (post.requests S counters).2 = none := by
  rw [h.alone_errors hshows htotal] at hfine
  cases hf : (post.requests S counters).2 with
  | none => rfl
  | some f =>
      rw [hf] at hfine
      cases hfine

end Post

/-- What a worker in its seat has written so far, when it has been given a number of turns: it has counted each line,
and what it has written and what its generator is about to ask for make up what it writes when it works alone.  It
has gone only when it is done or when the workers are stopped. -/
structure Seated [Powers] {σ : Type} [CounterStore σ] (post : Post) (S : Schema) (total : Int) (counters : σ)
    (stopped : Bool) (turns : Nat) (written : List String) (seat : Seat) : Prop where
  made : seat.made = written.length
  coverage : seat.coverage = Coverage.tally [] (List.replicate seat.made (Operation.scan.name, .ok))
  turns : seat.isGone = true ∨ seat.made = turns
  gone : seat.isGone = true → seat.made = post.task.budget ∨ stopped = true
  ahead : ∃ g left, seat.made + left = post.task.budget ∧
    (post.requests S counters).1.map Request.line = written ++
      (Worker.scansOf post.task.table post.mix counters left g).1.map Request.line ∧
    (post.requests S counters).2 = (Worker.scansOf post.task.table post.mix counters left g).2 ∧
    (seat.isGone = false → seat.generator = g ∧ ∃ read, g.Ready (post.setup S total) read)

namespace Seated

variable {σ : Type} [CounterStore σ] {post : Post} {S : Schema} {total : Int} {counters : σ} {stopped : Bool}
  {turns : Nat} {written : List String} {seat : Seat}

variable [Powers]

theorem first (post : Post) (S : Schema) (total : Int) (counters : σ) (stopped : Bool) :
    Seated post S total counters stopped 0 [] { generator := Shift.firstGenerator post S } where
  made := rfl
  coverage := rfl
  turns := Or.inr rfl
  gone := nofun
  ahead := ⟨_, post.task.budget, Nat.zero_add _, rfl, rfl, fun _ => ⟨rfl, post.ready_firstGenerator S total⟩⟩

/-- Stopping the workers changes nothing of what one has written. -/
theorem stop (h : Seated post S total counters stopped turns written seat) {stopped' : Bool}
    (hstops : stopped = true → stopped' = true) : Seated post S total counters stopped' turns written seat :=
  { h with gone := fun hgone => (h.gone hgone).imp_right hstops }

theorem ready (h : Seated post S total counters stopped turns written seat) (hthere : seat.isGone = false) :
    ∃ read, seat.generator.Ready (post.setup S total) read := by
  obtain ⟨g, _, _, _, _, hg⟩ := h.ahead
  obtain ⟨rfl, hready⟩ := hg hthere
  exact hready

/-- What a worker has written is the beginning of what it writes alone. -/
theorem isPrefix (h : Seated post S total counters stopped turns written seat) :
    written <+: (post.requests S counters).1.map Request.line := by
  obtain ⟨g, left, _, hlines, _, _⟩ := h.ahead
  exact ⟨_, hlines.symm⟩

/-- A worker that was given a turn more than it was asked for has gone. -/
theorem isGone_of_lt (h : Seated post S total counters stopped turns written seat)
    (hturns : post.task.budget < turns) : seat.isGone = true := by
  obtain ⟨_, left, hleft, _⟩ := h.ahead
  exact h.turns.resolve_right (by omega)

/-- A worker that has gone without being stopped has written all that it writes alone. -/
theorem eq_of_gone (h : Seated post S total counters stopped turns written seat) (hgone : seat.isGone = true)
    (hclear : stopped = false) : written = (post.requests S counters).1.map Request.line := by
  obtain ⟨g, left, hleft, hlines, _, _⟩ := h.ahead
  have hmade : seat.made = post.task.budget := (h.gone hgone).resolve_right (by rw [hclear]; exact Bool.false_ne_true)
  obtain rfl : left = 0 := by omega
  rw [hlines]
  exact (List.append_nil written).symm

end Seated

/-! ### Steps -/

/-- How many scans a worker has added to the board: all that it made, once it has gone. -/
def Seat.reported (seat : Seat) : Int := if seat.isGone then seat.made else 0

theorem Seat.sum_reported_update {n : Nat} (seats : Fin n → Seat) (i : Fin n) (seat : Seat) :
    ∑ j, (Function.update seats i seat j).reported =
      ∑ j, (seats j).reported + (seat.reported - (seats i).reported) := by
  simp only [Function.apply_update fun _ => Seat.reported]
  rw [Finset.sum_update_of_mem (Finset.mem_univ i), Finset.sum_eq_add_sum_sdiff_singleton_of_mem (Finset.mem_univ i)]
  omega

theorem Coverage.get_tally_scans (count : Nat) (name : String) :
    (tally [] (List.replicate count (Operation.scan.name, .ok))).get name =
      if name = Operation.scan.name then (count : Int) else 0 := by
  have hentry : entryName Operation.scan.name .ok = Operation.scan.name := rfl
  rw [get_tally, get_nil, List.countP_replicate, hentry, Int.zero_add]
  by_cases h : name = Operation.scan.name
  · rw [h, if_pos (decide_eq_true rfl), if_pos rfl]
  · rw [if_neg h, if_neg fun heq => h (of_decide_eq_true heq).symm]
    rfl

namespace Shift.Moves

variable {σ : Type} [CounterStore σ] {post : Post} {S : Schema} {total : Int} {counters : σ} {seat seat' : Seat}
  {board board' : Board} {t t' : Trace} {lines : List String}

variable [Powers]

/-- The lines are what a step adds to the trace. -/
theorem trace_eq (h : Moves post counters seat board t seat' board' t' lines) :
    t'.lines.toList = t.lines.toList ++ lines ∧ t'.refused = t.refused := by
  cases h with
  | scans => exact ⟨by simp [Trace.record], rfl⟩
  | _ => exact ⟨(List.append_nil _).symm, rfl⟩

/-- Workers that are stopped stay so. -/
theorem stopped_mono (h : Moves post counters seat board t seat' board' t' lines) (hstopped : board.stopped = true) :
    board'.stopped = true := by
  cases h with
  | aborts => rfl
  | _ => exact hstopped

theorem seated (h : Moves post counters seat board t seat' board' t' lines)
    (hscans : Worker.Scans (post.setup S total) counters post.task.table post.mix) {turns : Nat} {written : List String}
    (hseat : Seated post S total counters board.stopped turns written seat) :
    Seated post S total counters board'.stopped (turns + 1) (written ++ lines) seat' := by
  obtain ⟨g, left, hleft, hlines, hraised, hg⟩ := hseat.ahead
  cases h with
  | stays hgone =>
      rw [List.append_nil]
      exact { hseat with turns := Or.inl hgone }
  | leaves hthere hover =>
      have hdone : seat.made = post.task.budget ∨ board.stopped = true := hover.imp_left fun hle => by omega
      rw [List.append_nil]
      exact { hseat with
        turns := Or.inl rfl
        gone := fun _ => hdone
        ahead := ⟨g, left, hleft, hlines, hraised, nofun⟩ }
  | @scans r g' hthere hclear hmore hscan =>
      obtain ⟨rfl, hready⟩ := hg hthere
      obtain ⟨left, rfl⟩ : ∃ k, left = k + 1 := ⟨left - 1, by omega⟩
      obtain ⟨_, _, _, hready', _⟩ := hscans.nextScan_ends hready
      rw [hscan] at hready'
      rw [Worker.scansOf_succ_of_ok hscan] at hlines hraised
      refine ⟨?_, ?_, ?_, ?_, g', left, by dsimp only; omega, ?_, hraised, fun _ => ⟨rfl, hready'⟩⟩
      · rw [List.length_append, ← hseat.made]
        rfl
      · rw [List.replicate_succ', Coverage.tally, List.foldl_append, hseat.coverage]
        rfl
      · exact hseat.turns.imp_right (congrArg (· + 1))
      · exact fun hgone => absurd hgone (by rw [hthere]; exact Bool.false_ne_true)
      · rw [hlines, List.map_cons, List.append_assoc, List.singleton_append]
  | aborts hthere hclear hmore hscan =>
      rw [List.append_nil]
      exact { hseat with
        turns := Or.inl rfl
        gone := fun _ => Or.inr rfl
        ahead := ⟨g, left, hleft, hlines, hraised, nofun⟩ }

/-- A worker adds its scans to the board when it goes. -/
theorem get_coverage (h : Moves post counters seat board t seat' board' t' lines)
    (hcoverage : seat.coverage = Coverage.tally [] (List.replicate seat.made (Operation.scan.name, .ok)))
    (name : String) : board'.coverage.get name = board.coverage.get name +
      if name = Operation.scan.name then seat'.reported - seat.reported else 0 := by
  have hmerge : (board.coverage.merge seat.coverage).get name = board.coverage.get name +
      if name = Operation.scan.name then (seat.made : Int) else 0 := by
    have hnodup : Coverage.names (Coverage.tally [] (List.replicate seat.made (Operation.scan.name, .ok))) |>.Nodup :=
      Coverage.nodup_names_tally (c := []) List.nodup_nil _
    rw [hcoverage, Coverage.get_merge _ hnodup, Coverage.get_tally_scans]
  unfold Seat.reported
  cases h with
  | stays hgone => simp
  | leaves hthere hover => simpa [hthere] using hmerge
  | scans hthere hclear hmore hscan => simp [hthere]
  | aborts hthere hclear hmore hscan => simpa [hthere] using hmerge

/-- No failure ends a worker here that ends none when the worker is alone. -/
theorem board_eq (h : Moves post counters seat board t seat' board' t' lines) {turns : Nat} {written : List String}
    (hseat : Seated post S total counters board.stopped turns written seat)
    (hraised : (post.requests S counters).2 = none) :
    board'.errors = board.errors ∧ board'.stopped = board.stopped := by
  cases h with
  | aborts hthere hclear hmore hscan =>
      obtain ⟨g, left, hleft, _, hraised', hg⟩ := hseat.ahead
      obtain ⟨rfl, _⟩ := hg hthere
      obtain ⟨left, rfl⟩ : ∃ k, left = k + 1 := ⟨left - 1, by omega⟩
      rw [hraised, Worker.scansOf_succ_of_error hscan] at hraised'
      cases hraised'
  | _ => exact ⟨rfl, rfl⟩

end Shift.Moves

/-! ### Runs -/

namespace Shift

variable {n : Nat} {σ : Type} [CounterStore σ]

/-- What a shift has come to after some turns, in which the workers have written the given lines: the store is as it
was, the trace has the lines, every worker is in its seat, and the board has the scans of those that have gone.  It
holds no failure unless one of the workers fails when it is alone. -/
structure Scanning [Powers] (posts : Fin n → Post) (S : Schema) (total : Int) (counters : σ) (t : Trace) (board : Board)
    (turns : List (Fin n)) (written : List (Fin n × String)) (shift : Shift n σ) : Prop where
  store : shift.crew.counters = counters
  trace : ∃ t', shift.crew.documents = .trace t' ∧ t'.refused = [] ∧
    t'.lines.toList = t.lines.toList ++ written.map (·.2)
  seats : ∀ i, Seated (posts i) S total counters shift.crew.board.stopped (turns.count i) (itemsOf i written)
    (shift.seats i)
  coverage : ∀ name, shift.crew.board.coverage.get name = board.coverage.get name +
    if name = Operation.scan.name then ∑ i, (shift.seats i).reported else 0
  board : (∀ i, ((posts i).requests S counters).2 = none) →
    shift.crew.board.errors = board.errors ∧ shift.crew.board.stopped = board.stopped

variable {posts : Fin n → Post} {S : Schema} {total stored : Int} {counters : σ} {t : Trace} {board : Board}

theorem scanning_start [Powers] (posts : Fin n → Post) (S : Schema) (total : Int) (counters : σ)
    (hwrites : t.refused = []) (board : Board) :
    Scanning posts S total counters t board [] [] (start posts S ⟨counters, .trace t, board⟩) where
  store := rfl
  trace := ⟨t, rfl, hwrites, (List.append_nil _).symm⟩
  seats i := Seated.first (posts i) S total counters _
  coverage name := by
    have hnone : ∑ i, ((start posts S ⟨counters, .trace t, board⟩).seats i).reported = 0 :=
      Finset.sum_eq_zero fun _ _ => rfl
    rw [hnone, ite_self, Int.add_zero]
    rfl
  board _ := ⟨rfl, rfl⟩

theorem step_scanning [Powers] (hshows : CounterStore.Shows S total stored counters) (htotal : 0 < total)
    (hscans : ∀ i, (posts i).OnlyScans) {turns : List (Fin n)} {written : List (Fin n × String)} {shift : Shift n σ}
    (h : Scanning posts S total counters t board turns written shift) (i : Fin n) :
    (step posts i).Returns shift fun _ shift' => ∃ lines,
      shift'.crew.documents.lines = shift.crew.documents.lines ++ lines ∧
      Scanning posts S total counters t board (turns ++ [i]) (written ++ lines.map fun line => (i, line)) shift' := by
  obtain ⟨seats, crewCounters, documents, now⟩ := shift
  obtain rfl : crewCounters = counters := h.store
  obtain ⟨t₁, rfl, hwrites, hlines⟩ := h.trace
  have hworks := (hscans i).scans hshows htotal
  obtain ⟨seat', now', t', lines, hmoves, hends⟩ := step_ends hworks (hscans i).unbounded (h.seats i).ready hwrites
  obtain ⟨htrace, hrefused⟩ := hmoves.trace_eq
  refine hends.returns ⟨lines, htrace, rfl, ⟨t', rfl, hrefused.trans hwrites, ?_⟩, fun j => ?_,
    fun name => ?_, fun hraised => ?_⟩
  · rw [htrace, hlines, List.map_append, List.append_assoc, List.map_map]
    exact congrArg (fun l => _ ++ (_ ++ l)) (List.map_id lines).symm
  · dsimp only
    rw [List.count_append, itemsOf_append]
    by_cases hj : j = i
    · subst hj
      rw [Function.update_self, List.count_singleton_self, itemsOf_map_self]
      exact hmoves.seated hworks (h.seats j)
    · rw [Function.update_of_ne hj, List.count_singleton, if_neg (by simpa using Ne.symm hj),
        itemsOf_map_of_ne (Ne.symm hj), List.append_nil]
      exact (h.seats j).stop hmoves.stopped_mono
  · dsimp only
    have hbefore := h.coverage name
    have hget := hmoves.get_coverage (h.seats i).coverage name
    dsimp only at hbefore hget
    rw [hget, hbefore, Seat.sum_reported_update]
    split
    · omega
    · omega
  · obtain ⟨herrors, hstopped⟩ := hmoves.board_eq (h.seats i) (hraised i)
    obtain ⟨herrors', hstopped'⟩ := h.board hraised
    exact ⟨herrors.trans herrors', hstopped.trans hstopped'⟩

theorem run_scanning [Powers] (hshows : CounterStore.Shows S total stored counters) (htotal : 0 < total)
    (hscans : ∀ i, (posts i).OnlyScans) (schedule : List (Fin n)) {turns : List (Fin n)}
    {written : List (Fin n × String)} {shift : Shift n σ}
    (h : Scanning posts S total counters t board turns written shift) :
    (run posts schedule).Returns shift fun records shift' =>
      Scanning posts S total counters t board (turns ++ schedule) (written ++ records) shift' := by
  induction schedule generalizing turns written shift with
  | nil =>
      refine Action.ensures_pure.mpr ?_
      rw [List.append_nil, List.append_nil]
      exact h
  | cons i schedule ih =>
      refine run_cons_of_returns _ (step_scanning hshows htotal hscans h i) fun lines shift₁ h₁ =>
        (ih h₁).mono (fun records shift₂ h₂ => ?_) fun _ _ h => h
      rw [← List.append_assoc]
      rw [List.append_assoc, List.singleton_append] at h₂
      exact h₂

/-- A shift in which no worker is ended by a failure and each has had more turns than it was asked for: each has
written all that it writes alone. -/
theorem Scanning.complete [Powers] {turns : List (Fin n)} {records : List (Fin n × String)} {shift : Shift n σ}
    (h : Scanning posts S total counters t board turns records shift)
    (hshows : CounterStore.Shows S total stored counters) (htotal : 0 < total) (hscans : ∀ i, (posts i).OnlyScans)
    (hclear : board.stopped = false) (hfine : ∀ i, ((posts i).alone S counters).board.errors = [])
    (hturns : ∀ i, (posts i).task.operations < turns.count i) :
    (∀ i, itemsOf i records = ((posts i).alone S counters).documents.lines) ∧
      (∀ i, (shift.seats i).reported = (posts i).task.operations) ∧
      shift.crew.board.errors = board.errors ∧ shift.crew.board.stopped = false := by
  obtain ⟨herrors, hstopped⟩ := h.board fun i => (hscans i).requests_raised hshows htotal (hfine i)
  rw [hclear] at hstopped
  have hbudget : ∀ i, ((posts i).task.budget : Int) = (posts i).task.operations := fun i =>
    Task.budget_eq (hscans i).operations
  have hgone : ∀ i, (shift.seats i).isGone = true := by
    intro i
    have hlt := hturns i
    rw [← hbudget i] at hlt
    exact (h.seats i).isGone_of_lt (Int.ofNat_lt.mp hlt)
  refine ⟨fun i => ?_, fun i => ?_, herrors, hstopped⟩
  · rw [(hscans i).alone_lines hshows htotal]
    exact (h.seats i).eq_of_gone (hgone i) hstopped
  · have hmade := ((h.seats i).gone (hgone i)).resolve_right (Bool.eq_false_iff.mp hstopped)
    rw [Seat.reported, if_pos (hgone i), hmade, hbudget i]

/-- Workers that only scan take their turns in any order, at a store that shows a positive number of documents and at
a trace that takes every line.  The store stays as it is, and each worker writes the beginning of what it writes
alone.  Only numbers can end a worker, and only where indices are not drawn uniformly or a bound of its window is too
long to be written.  If no failure ends any of them when it is alone, each writes all that it writes alone once it has
had more turns than it was asked for, so that the lines are but for their order those of the workers alone, and what
the board counts has grown by the scans that they were asked for. -/
theorem run_scans [Powers] (hshows : CounterStore.Shows S total stored counters) (htotal : 0 < total)
    (hscans : ∀ i, (posts i).OnlyScans) (hwrites : t.refused = []) (hclear : board.stopped = false)
    (schedule : List (Fin n)) :
    (∀ i, (Worker.run (posts i).task (posts i).settings S (posts i).proportions).Returns
        (⟨counters, .trace .empty, {}⟩ : Crew σ) (fun _ crew => crew = (posts i).alone S counters) ∧
      ∀ error ∈ ((posts i).alone S counters).board.errors,
        ((posts i).settings.distribution ≠ .uniform ∨ ¬ (posts i).settings.window.IsWritable) ∧
          ∃ n, error = ((posts i).task.worker, .number n)) ∧
    (run posts schedule).Returns (start posts S ⟨counters, .trace t, board⟩) fun records shift =>
      shift.crew.counters = counters ∧
      (∃ t', shift.crew.documents = .trace t' ∧ t'.lines.toList = t.lines.toList ++ records.map (·.2)) ∧
      (∀ i, itemsOf i records <+: ((posts i).alone S counters).documents.lines) ∧
      ((∀ i, ((posts i).alone S counters).board.errors = []) →
        (∀ i, (posts i).task.operations < schedule.count i) →
        (∀ i, itemsOf i records = ((posts i).alone S counters).documents.lines) ∧
        (records.map (·.2)).Perm
          ((List.finRange n).flatMap fun i => ((posts i).alone S counters).documents.lines) ∧
        (∀ name, shift.crew.board.coverage.get name = board.coverage.get name +
          if name = Operation.scan.name then ∑ i, (posts i).task.operations else 0) ∧
        shift.crew.board.errors = board.errors ∧ shift.crew.board.stopped = false) := by
  refine ⟨fun i => ⟨?_, fun error herror => ?_⟩, ?_⟩
  · have hends := (hscans i).run_ends hshows htotal
    exact hends.returns hends.after_eq.symm
  · rw [(hscans i).alone_errors hshows htotal, Option.mem_toList] at herror
    obtain ⟨f, hf, rfl⟩ := Option.map_eq_some_iff.mp herror
    obtain ⟨hskewed, n, rfl⟩ :=
      ((hscans i).scans hshows htotal).mayFail ((posts i).ready_firstGenerator S total) hf
    exact ⟨hskewed, n, rfl⟩
  · refine (run_scanning hshows htotal hscans schedule (scanning_start posts S total counters hwrites board)).mono ?_
      fun _ _ h => h
    intro records shift h
    rw [List.nil_append, List.nil_append] at h
    obtain ⟨t', ht', _, hlines⟩ := h.trace
    refine ⟨h.store, ⟨t', ht', hlines⟩, fun i => ?_, fun hfine hturns => ?_⟩
    · rw [(hscans i).alone_lines hshows htotal]
      exact (h.seats i).isPrefix
    · obtain ⟨hwhole, hreported, hend⟩ := h.complete hshows htotal hscans hclear hfine hturns
      have howners : ∀ item ∈ records, item.1 ∈ List.finRange n := fun _ _ => List.mem_finRange _
      have hperm := perm_flatMap_itemsOf (List.nodup_finRange n) howners
      refine ⟨hwhole, ?_, fun name => ?_, hend⟩
      · rwa [List.flatMap_congr fun i _ => hwhole i] at hperm
      · rw [h.coverage, Finset.sum_congr rfl fun i _ => hreported i]

theorem filter_scan : ([(Operation.scan.name, (1 : Binary64))].filter fun item => item.2.isPositive) =
    [(Operation.scan.name, 1)] := by
  decide +kernel

/-- A worker of the given number that scans. -/
def scanPost (settings : Settings) (worker operations : Int) : Post where
  task := { worker, operations, table := .string "usertable" }
  settings
  proportions := [(Operation.scan.name, 1)]
  mix := ⟨(Operation.scan.name, 1), []⟩
  mixed := Mix.ofWeights_of_single filter_scan

theorem onlyScans_scanPost (settings : Settings) (worker : Int) {operations : Int} (h : 1 ≤ operations) :
    (scanPost settings worker operations).OnlyScans where
  weight := ⟨1, by decide +kernel, filter_scan⟩
  table := rfl
  operations := h
  unbounded _ := rfl

/-- Two workers that draw uniformly, the first asked for two scans and the second for one. -/
theorem run_scans_twoWorkers :
    let posts (i : Fin 2) := scanPost {} (i.val + 1) (2 - i.val)
    let counters := (CounterStore.seedCounters .incidents 3 0).after MemoryStore.empty
    CounterStore.Shows .incidents 3 0 counters ∧ (0 : Int) < 3 ∧ (∀ i, (posts i).OnlyScans) ∧
      Trace.empty.refused = [] ∧ ({} : Board).stopped = false ∧
      (run posts [0, 1, 1, 0, 0]).Returns (start posts .incidents ⟨counters, .trace .empty, {}⟩)
        fun records shift => shift.crew.counters = counters ∧
          (∀ i, itemsOf i records = ((posts i).alone .incidents counters).documents.lines) ∧
          shift.crew.board.coverage.get Operation.scan.name = 3 ∧ shift.crew.board.errors = [] := by
  intro posts counters
  have hw : ∀ z : Int, z.natAbs < 10 → Numeral.IsWritable z := fun z hz => Numeral.isWritable_of_natAbs_lt hz
  have hshows : CounterStore.Shows .incidents 3 0 counters :=
    MemoryStore.shows_of_seedCounters Schema.keysDistinct_incidents (hw 3 (by decide)) (hw (3 + 1 + 0) (by decide))
  have hscans : ∀ i, (posts i).OnlyScans := fun i => onlyScans_scanPost {} _ (by omega)
  have hclear : ({} : Board).stopped = false := rfl
  obtain ⟨halone, hrun⟩ := run_scans (t := .empty) hshows (by decide) hscans rfl hclear [0, 1, 1, 0, 0]
  have hfine : ∀ i, ((posts i).alone .incidents counters).board.errors = [] := by
    intro i
    refine List.eq_nil_iff_forall_not_mem.mpr fun error herror => ?_
    exact ((halone i).2 error herror).1.elim (absurd rfl) (absurd Window.isWritable_default)
  refine ⟨hshows, by decide, hscans, rfl, rfl, hrun.mono ?_ fun _ _ h => h⟩
  rintro records shift ⟨hstore, _, _, hwhole⟩
  obtain ⟨hlines, _, hcoverage, herrors, _⟩ := hwhole hfine (by decide)
  refine ⟨hstore, hlines, ?_, herrors⟩
  rw [hcoverage, if_pos rfl]
  decide

/-! ### Workers that are stopped short -/

/-- A long window makes the first scan of a generator fail, where two documents at most are stored. -/
theorem scanOf_longWindow [Powers] {docs : List (String × Json.Value)} {last : Int} {m : MemoryStore}
    (hm : m.Stocked .incidents 3 docs last) (hlength : docs.length ≤ 2) {source : RandomSource}
    (hfair : source.Fair 3) {weight : Binary64} (hpositive : weight.isPositive = true)
    (hfinite : weight.isFinite = true) (table : Json.Value) :
    ∃ f g, Worker.scanOf table ⟨(Operation.scan.name, weight), []⟩ m (.make Fleet.longWindow .incidents source) =
      (.error f, g) := by
  have hdraw : (Mix.draw ⟨(Operation.scan.name, weight), []⟩).Ends source (.ok Operation.scan.name) source.unit.2 :=
    Mix.draw_ends_of_single hpositive hfinite source
  have hname : (Generator.Site.onSource (Mix.draw ⟨(Operation.scan.name, weight), []⟩)).Ends
      (⟨.make Fleet.longWindow .incidents source, m⟩ : Generator.Site MemoryStore) (.ok Operation.scan.name)
      ⟨.make Fleet.longWindow .incidents source.unit.2, m⟩ :=
    Action.Ends.within (Action.Ends.within (Action.Ends.within hdraw))
  have hsite : Generator.Site.At ⟨Fleet.longWindow, .incidents, 3, 3⟩ 0 m
      ⟨.make Fleet.longWindow .incidents source.unit.2, m⟩ := ⟨Generator.ready_make hfair.unit, rfl⟩
  have hindex := Generator.distributedIndex_of_fresh Schema.keysDistinct_incidents hsite hm hlength rfl
  have hid : Generator.distributedDocId.Ensures (⟨.make Fleet.longWindow .incidents source.unit.2, m⟩ :
      Generator.Site MemoryStore) (fun _ _ => False) fun _ _ => True := by
    refine hindex.bind (fun index _ h => ?_) fun _ _ _ => trivial
    rw [Numeral.writeInteger_eq, if_neg (Fleet.index_longWindow h).2]
    exact Action.ensures_ofExcept.mpr ⟨nofun, fun _ _ => trivial⟩
  have hscan : (Worker.nextScan table ⟨(Operation.scan.name, weight), []⟩).Ensures
      ⟨.make Fleet.longWindow .incidents source, m⟩ (fun _ _ => False) fun _ _ => True := by
    have hcompiled : (Transaction.compiled table .scan).Ensures (⟨.make Fleet.longWindow .incidents source.unit.2, m⟩ :
        Generator.Site MemoryStore) (fun _ _ => False) fun _ _ => True := hid.bind (fun _ _ h => h.elim) fun _ _ h => h
    refine hname.bind_ensures ?_
    exact hcompiled.bind (fun _ _ h => h.elim) fun _ _ h => h
  rcases hscan.outcome_cases with ⟨_, _, h⟩ | ⟨f, hf, _⟩
  · exact h.elim
  · exact ⟨f, _, Prod.ext hf rfl⟩

/-- Two workers that are asked for one scan each.  Where the first one is before the other, its long window stops
both, and nothing is written; where it comes second, the other has written its line. -/
theorem run_scans_longWindow :
    let posts (i : Fin 2) := scanPost (if i = 0 then Fleet.longWindow else {}) (i.val + 1) 1
    let counters := (CounterStore.seedCounters .incidents 3 0).after MemoryStore.empty
    let shift := start posts .incidents ⟨counters, .trace .empty, {}⟩
    CounterStore.Shows .incidents 3 0 counters ∧ (∀ i, (posts i).OnlyScans) ∧
      ((run posts [0, 1]).Returns shift fun records shift => (∀ i, (shift.seats i).isGone = true) ∧
        records = [] ∧ shift.crew.board.coverage.get Operation.scan.name = 0) ∧
      (run posts [1, 0, 1]).Returns shift fun records shift => (∀ i, (shift.seats i).isGone = true) ∧
        (∃ line, records = [(1, line)]) ∧ shift.crew.board.coverage.get Operation.scan.name = 1 := by
  intro posts counters shift
  have hw : ∀ z : Int, z.natAbs < 10 → Numeral.IsWritable z := fun z hz => Numeral.isWritable_of_natAbs_lt hz
  have hS := Schema.keysDistinct_incidents
  have hshows : CounterStore.Shows .incidents 3 0 counters :=
    MemoryStore.shows_of_seedCounters hS (hw 3 (by decide)) (hw (3 + 1 + 0) (by decide))
  have hm : counters.Stocked .incidents 3 [] (3 + 1 + 0) :=
    MemoryStore.Stocked.of_seedCounters hS (hw 3 (by decide)) (hw (3 + 1 + 0) (by decide))
  -- the seeded store is not to be evaluated
  clear_value counters
  have hscans : ∀ i, (posts i).OnlyScans := fun i => onlyScans_scanPost _ _ (Int.le_refl 1)
  have hworks := fun i => (hscans i).scans hshows (by decide)
  have hready := fun i => (posts i).ready_firstGenerator .incidents 3
  obtain ⟨f, g₀, hlong⟩ : ∃ f g, Worker.scanOf (posts 0).task.table (posts 0).mix counters
      (firstGenerator (posts 0) .incidents) = (.error f, g) :=
    scanOf_longWindow hm (by decide) (RandomSource.fair_ofSeed _ _) (by decide +kernel) (by decide +kernel) _
  obtain ⟨r, g₁, hshort⟩ : ∃ r g, Worker.scanOf (posts 1).task.table (posts 1).mix counters
      (firstGenerator (posts 1) .incidents) = (.ok r, g) := by
    obtain ⟨_, _, _, _, hfails⟩ := (hworks 1).nextScan_ends (hready 1)
    rcases hscan : Worker.scanOf (posts 1).task.table (posts 1).mix counters
      (firstGenerator (posts 1) .incidents) with ⟨f | r, g⟩
    · rw [hscan] at hfails
      exact absurd (hfails f rfl) (Setup.not_mayFail rfl Window.isWritable_default f)
    · exact ⟨r, g, rfl⟩
  refine ⟨hshows, hscans, ?_, ?_⟩
  · refine run_cons_of_ends
      (step_aborts (hworks 0) (fun _ => rfl) rfl rfl Nat.one_pos (hready 0) hlong) (List.append_nil _).symm ?_
    refine run_cons_of_ends (step_leaves rfl hshows (Or.inr rfl)) (List.append_nil _).symm ?_
    exact Action.ensures_pure.mpr ⟨Fin.forall_fin_two.mpr ⟨rfl, rfl⟩, rfl, rfl⟩
  · refine run_cons_of_ends
      (step_scans (hworks 1) (fun _ => rfl) rfl rfl Nat.one_pos (hready 1) rfl hshort) (List.nil_append _).symm ?_
    refine run_cons_of_ends
      (step_aborts (hworks 0) (fun _ => rfl) rfl rfl Nat.one_pos (hready 0) hlong) (List.append_nil _).symm ?_
    refine run_cons_of_ends (step_leaves rfl hshows (Or.inr rfl)) (List.append_nil _).symm ?_
    exact Action.ensures_pure.mpr ⟨Fin.forall_fin_two.mpr ⟨rfl, rfl⟩, ⟨r.line, rfl⟩, rfl⟩

end Shift

end GeoWorkload
