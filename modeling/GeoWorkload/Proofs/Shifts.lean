import GeoWorkload.Proofs.WorkerScans
import Mathlib.Logic.Function.Basic

/-!
# Shifts of workers

Any number of workers share a counter store, a trace and a board (`Shift`) and take their turns in any order, one
whole transaction at a time (`Shift.run`).  Of a worker that scans it is said once what its next step can do to what
it has of its own and to what it shares (`Shift.Moves`, `Shift.step_ends`).
-/

namespace GeoWorkload

/-- What a worker is there for: its task, its settings, and the mix that the proportions of its operations make. -/
structure Post where
  task : Task
  settings : Settings
  proportions : List (String × Binary64)
  mix : Mix String
  mixed : Mix.ofWeights proportions = .ok mix

/-- What a worker has of its own while it works: its generator, its coverage, the number of its transactions, and
whether it has gone. -/
structure Seat where
  generator : Generator
  coverage : Coverage := []
  made : Nat := 0
  isGone : Bool := false

/-- Workers in their seats, with all that they share. -/
structure Shift (n : Nat) (σ : Type) where
  seats : Fin n → Seat
  crew : Crew σ

namespace Shift

variable {n : Nat} {σ α : Type}

/-- The generator that a worker starts with. -/
def firstGenerator (post : Post) (S : Schema) : Generator :=
  Worker.generator post.settings S post.task.moment post.task.worker

/-- All workers at the start. -/
def start (posts : Fin n → Post) (S : Schema) (crew : Crew σ) : Shift n σ where
  seats i := { generator := firstGenerator (posts i) S }
  crew

/-- The desk of a worker. -/
def desk (i : Fin n) (shift : Shift n σ) : Worker.Desk σ where
  station := ⟨(shift.seats i).generator, shift.crew.counters, shift.crew.documents⟩
  coverage := (shift.seats i).coverage
  board := shift.crew.board

/-- The shift after a worker did something at its desk. -/
def withDesk (i : Fin n) (desk : Worker.Desk σ) (shift : Shift n σ) : Shift n σ where
  seats := Function.update shift.seats i
    { shift.seats i with generator := desk.station.generator, coverage := desk.coverage }
  crew := desk.toCrew

/-- An action of a worker at its desk. -/
def atDesk (i : Fin n) (x : Action (Worker.Desk σ) α) : Action (Shift n σ) α :=
  Action.within (desk i) (withDesk i) x

/-- A change of what a worker has of its own. -/
def changeSeat (i : Fin n) (f : Seat → Seat) : Action (Shift n σ) Unit :=
  Action.change fun shift => { shift with seats := Function.update shift.seats i (f (shift.seats i)) }

variable [CounterStore σ]

/-- A worker adds its coverage to the board, closes its use of the counter store and goes. -/
def leave (i : Fin n) : Action (Shift n σ) Unit := do
  atDesk i Worker.report
  Action.within (·.crew) (fun crew shift => { shift with crew }) Worker.leave
  changeSeat i fun seat => { seat with isGone := true }

/-- The next step of a worker: one transaction, or going when it has made as many as it was asked for, when its time
is up, when the workers are stopped or when a failure has ended it.  Nothing happens once it has gone. -/
def step [Powers] (posts : Fin n → Post) (i : Fin n) : Action (Shift n σ) Unit := do
  let shift ← Action.look id
  let seat := shift.seats i
  if seat.isGone then return
  else if (posts i).task.budget ≤ seat.made || shift.crew.board.stopped || (posts i).task.isOver seat.made then
    leave i
  else
    match ← (atDesk i (Worker.turn (posts i).task (posts i).mix (seat.made + 1))).attempt with
    | .ok () => changeSeat i fun seat => { seat with made := seat.made + 1 }
    | .error f =>
      atDesk i (Worker.abort (posts i).task f)
      leave i

/-- The workers take their next steps in the order of the schedule.  Given are the lines that were written, each with
the worker that wrote it. -/
def run [Powers] (posts : Fin n → Post) : (schedule : List (Fin n)) → Action (Shift n σ) (List (Fin n × String))
  | [] => return []
  | i :: schedule => do
    let before ← Action.look fun shift : Shift n σ => shift.crew.documents.lines.length
    step posts i
    let written ← Action.look fun shift : Shift n σ => shift.crew.documents.lines.drop before
    return written.map (fun line => (i, line)) ++ (← run posts schedule)

/-! ### One step -/

/-- What the next step of a worker that scans does, at a store that does not change: to what it has of its own, to the
board and to the trace, and which lines it writes. -/
inductive Moves [Powers] (post : Post) (counters : σ) (seat : Seat) (board : Board) (t : Trace) :
    Seat → Board → Trace → List String → Prop where
  | stays (hgone : seat.isGone = true) : Moves post counters seat board t seat board t []
  | leaves (hthere : seat.isGone = false) (hover : post.task.budget ≤ seat.made ∨ board.stopped = true) :
      Moves post counters seat board t { seat with isGone := true }
        { board with coverage := board.coverage.merge seat.coverage } t []
  | scans {r : Request} {g : Generator} (hthere : seat.isGone = false) (hclear : board.stopped = false)
      (hmore : seat.made < post.task.budget)
      (hscan : Worker.scanOf post.task.table post.mix counters seat.generator = (.ok r, g)) :
      Moves post counters seat board t
        { seat with
          generator := g
          coverage := seat.coverage.add (Coverage.entryName Operation.scan.name .ok) 1
          made := seat.made + 1 }
        board (t.record r) [r.line]
  | aborts {f : Failure} {g : Generator} (hthere : seat.isGone = false) (hclear : board.stopped = false)
      (hmore : seat.made < post.task.budget)
      (hscan : Worker.scanOf post.task.table post.mix counters seat.generator = (.error f, g)) :
      Moves post counters seat board t { seat with generator := g, isGone := true }
        { coverage := board.coverage.merge seat.coverage
          errors := board.errors ++ [(post.task.worker, f)]
          stopped := true } t []

section step

variable {counters : σ} {posts : Fin n → Post} {i : Fin n} {t : Trace}

omit [CounterStore σ] in
theorem atDesk_ends {x : Action (Worker.Desk σ) α} {shift : Shift n σ} {r : Except Failure α}
    {desk' : Worker.Desk σ} (h : x.Ends (shift.desk i) r desk') :
    (atDesk i x).Ends shift r (shift.withDesk i desk') := by
  unfold atDesk
  apply Action.Ends.within
  exact h

omit [CounterStore σ] in
/-- What concerns the board alone leaves the seats as they are. -/
theorem withDesk_board (shift : Shift n σ) (board : Board) :
    shift.withDesk i { shift.desk i with board } = { shift with crew := { shift.crew with board } } := by
  unfold withDesk desk
  dsimp only
  rw [Function.update_eq_self]
  rfl

omit [CounterStore σ] in
theorem changeSeat_ends (f : Seat → Seat) (shift : Shift n σ) : (changeSeat i f).Ends shift (.ok ())
    { shift with seats := Function.update shift.seats i (f (shift.seats i)) } :=
  Action.ends_change _

theorem leave_ends {S : Schema} {total stored : Int} (hshows : CounterStore.Shows S total stored counters)
    (seats : Fin n → Seat) (documents : DocumentStore) (board : Board) :
    (leave i).Ends (⟨seats, counters, documents, board⟩ : Shift n σ) (.ok ())
      ⟨Function.update seats i { seats i with isGone := true }, counters, documents,
        { board with coverage := board.coverage.merge (seats i).coverage }⟩ := by
  have hreport := atDesk_ends (Worker.report_ends (desk i (⟨seats, counters, documents, board⟩ : Shift n σ)))
  rw [withDesk_board] at hreport
  have hclose : ∀ (board : Board), (Action.within (·.crew) (fun crew (shift : Shift n σ) => { shift with crew })
      Worker.leave).Ends ⟨seats, counters, documents, board⟩ (.ok ()) ⟨seats, counters, documents, board⟩ := by
    intro board
    apply Action.Ends.within
    apply Action.Ends.within
    exact hshows.close
  unfold leave
  exact hreport.bind_ok ((hclose _).bind_ok (changeSeat_ends _ _))

omit [CounterStore σ] in
theorem isOver_of {task : Task} {made : Nat} {stopped : Bool} (hover : task.budget ≤ made ∨ stopped = true) :
    (decide (task.budget ≤ made) || stopped || task.isOver made) = true := by
  rcases hover with hle | hstopped
  · rw [decide_eq_true hle]
    rfl
  · rw [hstopped, Bool.or_true]
    rfl

omit [CounterStore σ] in
theorem not_isOver_of {task : Task} {made : Nat} {stopped : Bool} (hunbounded : ∀ done, task.isOver done = false)
    (hclear : stopped = false) (hmore : made < task.budget) :
    ¬ (decide (task.budget ≤ made) || stopped || task.isOver made) = true := by
  rw [hclear, hunbounded, decide_eq_false (Nat.not_le.mpr hmore)]
  exact Bool.false_ne_true

variable {seats : Fin n → Seat} {board : Board}

variable [Powers]

theorem step_stays (hgone : (seats i).isGone = true) : (step posts i).Ends
    (⟨seats, counters, .trace t, board⟩ : Shift n σ) (.ok ()) ⟨seats, counters, .trace t, board⟩ := by
  refine Action.Ends.bind_ok (Action.ends_look _) ?_
  dsimp only [id]
  rw [if_pos hgone]
  exact Action.ends_pure ()

theorem step_leaves (hthere : (seats i).isGone = false) {S : Schema} {total stored : Int}
    (hshows : CounterStore.Shows S total stored counters)
    (hover : (posts i).task.budget ≤ (seats i).made ∨ board.stopped = true) :
    (step posts i).Ends (⟨seats, counters, .trace t, board⟩ : Shift n σ) (.ok ())
      ⟨Function.update seats i { seats i with isGone := true }, counters, .trace t,
        { board with coverage := board.coverage.merge (seats i).coverage }⟩ := by
  refine Action.Ends.bind_ok (Action.ends_look _) ?_
  dsimp only [id]
  rw [if_neg (Bool.eq_false_iff.mp hthere), if_pos (isOver_of hover)]
  exact leave_ends hshows seats (.trace t) board

section scan

variable {w : Setup} {g : Generator} (h : Worker.Scans w counters (posts i).task.table (posts i).mix)
  (hunbounded : ∀ done, (posts i).task.isOver done = false) (hthere : (seats i).isGone = false)
  (hclear : board.stopped = false) (hmore : (seats i).made < (posts i).task.budget)
  (hg : ∃ read, (seats i).generator.Ready w read)

include h hunbounded hthere hclear hmore hg

theorem step_scans (hwrites : t.refused = []) {r : Request}
    (hscan : Worker.scanOf (posts i).task.table (posts i).mix counters (seats i).generator = (.ok r, g)) :
    (step posts i).Ends (⟨seats, counters, .trace t, board⟩ : Shift n σ) (.ok ())
      ⟨Function.update seats i
        { seats i with
          generator := g
          coverage := (seats i).coverage.add (Coverage.entryName Operation.scan.name .ok) 1
          made := (seats i).made + 1 }, counters, .trace (t.record r), board⟩ := by
  have hdesk : (desk i (⟨seats, counters, .trace t, board⟩ : Shift n σ)).station =
      ⟨(seats i).generator, counters, .trace t⟩ := rfl
  have hturn := atDesk_ends (h.turn_ends_ok hg hwrites hdesk ((seats i).made + 1) hscan)
  have hcount := changeSeat_ends (i := i) (fun seat => { seat with made := seat.made + 1 }) (withDesk i
    { desk i (⟨seats, counters, .trace t, board⟩ : Shift n σ) with
      station := ⟨g, counters, .trace (t.record r)⟩
      coverage := (seats i).coverage.add (Coverage.entryName Operation.scan.name .ok) 1 }
    ⟨seats, counters, .trace t, board⟩)
  unfold withDesk at hcount
  dsimp only at hcount
  rw [Function.update_self, Function.update_idem] at hcount
  refine Action.Ends.bind_ok (Action.ends_look _) ?_
  dsimp only [id]
  rw [if_neg (Bool.eq_false_iff.mp hthere), if_neg (not_isOver_of hunbounded hclear hmore)]
  exact Action.Ends.bind_ok hturn.attempt hcount

theorem step_aborts {f : Failure}
    (hscan : Worker.scanOf (posts i).task.table (posts i).mix counters (seats i).generator = (.error f, g)) :
    (step posts i).Ends (⟨seats, counters, .trace t, board⟩ : Shift n σ) (.ok ())
      ⟨Function.update seats i { seats i with generator := g, isGone := true }, counters, .trace t,
        { coverage := board.coverage.merge (seats i).coverage
          errors := board.errors ++ [((posts i).task.worker, f)]
          stopped := true }⟩ := by
  have hdesk : (desk i (⟨seats, counters, .trace t, board⟩ : Shift n σ)).station =
      ⟨(seats i).generator, counters, .trace t⟩ := rfl
  obtain ⟨stored, hshows⟩ := h.shows
  have hturn := atDesk_ends (h.turn_ends_error hg hdesk ((seats i).made + 1) hscan)
  have habort := atDesk_ends (Worker.abort_ends (posts i).task f (desk i (withDesk i
    { desk i (⟨seats, counters, .trace t, board⟩ : Shift n σ) with station := ⟨g, counters, .trace t⟩ }
    ⟨seats, counters, .trace t, board⟩)))
  have hleave := leave_ends (i := i) hshows
    (Function.update seats i { seats i with generator := g }) (.trace t)
    { board with errors := board.errors ++ [((posts i).task.worker, f)], stopped := true }
  rw [withDesk_board] at habort
  rw [Function.update_self, Function.update_idem] at hleave
  refine Action.Ends.bind_ok (Action.ends_look _) ?_
  dsimp only [id]
  rw [if_neg (Bool.eq_false_iff.mp hthere), if_neg (not_isOver_of hunbounded hclear hmore)]
  exact Action.Ends.bind_ok hturn.attempt (habort.bind_ok hleave)

end scan

/-- What the next step of a worker that scans does. -/
theorem step_ends {w : Setup} (h : Worker.Scans w counters (posts i).task.table (posts i).mix)
    (hunbounded : ∀ done, (posts i).task.isOver done = false)
    (hready : (seats i).isGone = false → ∃ read, (seats i).generator.Ready w read) (hwrites : t.refused = []) :
    ∃ seat' board' t' written, Moves (posts i) counters (seats i) board t seat' board' t' written ∧
      (step posts i).Ends (⟨seats, counters, .trace t, board⟩ : Shift n σ) (.ok ())
        ⟨Function.update seats i seat', counters, .trace t', board'⟩ := by
  obtain ⟨stored, hshows⟩ := h.shows
  cases hgone : (seats i).isGone with
  | true =>
      refine ⟨seats i, board, t, [], .stays hgone, ?_⟩
      rw [Function.update_eq_self]
      exact step_stays hgone
  | false =>
      have hg := hready hgone
      by_cases hover : (posts i).task.budget ≤ (seats i).made ∨ board.stopped = true
      · exact ⟨_, _, t, [], .leaves hgone hover, step_leaves hgone hshows hover⟩
      · rw [not_or, Nat.not_le, Bool.not_eq_true] at hover
        obtain ⟨hmore, hclear⟩ := hover
        rcases hscan : Worker.scanOf (posts i).task.table (posts i).mix counters (seats i).generator with ⟨f | r, g⟩
        · exact ⟨_, _, t, [], .aborts hgone hclear hmore hscan,
            step_aborts h hunbounded hgone hclear hmore hg hscan⟩
        · exact ⟨_, _, t.record r, [r.line], .scans hgone hclear hmore hscan,
            step_scans h hunbounded hgone hclear hmore hg hwrites hscan⟩

end step

/-! ### Runs -/

section run

variable {posts : Fin n → Post} {i : Fin n} {schedule : List (Fin n)} {shift shift' : Shift n σ}
  {ok : List (Fin n × String) → Shift n σ → Prop}

/-- A run is a step, whose lines are the worker's, and the run of the rest. -/
theorem run_cons_of_returns [Powers] (mid : List String → Shift n σ → Prop)
    (hstep : (step posts i).Returns shift fun _ shift' => ∃ lines,
      shift'.crew.documents.lines = shift.crew.documents.lines ++ lines ∧ mid lines shift')
    (hrest : ∀ lines shift', mid lines shift' → (run posts schedule).Returns shift' fun records shift'' =>
      ok (lines.map (fun line => (i, line)) ++ records) shift'') :
    (run posts (i :: schedule)).Returns shift ok := by
  unfold run
  refine Action.ensures_look_bind (hstep.bind ?_ fun _ _ h => h)
  rintro _ shift' ⟨lines, hlines, hmid⟩
  refine Action.ensures_look_bind ((hrest lines shift' hmid).bind (fun records shift'' h => ?_) fun _ _ h => h)
  refine Action.ensures_pure.mpr ?_
  rwa [hlines, List.drop_left]

theorem run_cons_of_ends [Powers] {lines : List String} (hstep : (step posts i).Ends shift (.ok ()) shift')
    (hlines : shift'.crew.documents.lines = shift.crew.documents.lines ++ lines)
    (hrest : (run posts schedule).Returns shift' fun records shift'' =>
      ok (lines.map (fun line => (i, line)) ++ records) shift'') :
    (run posts (i :: schedule)).Returns shift ok := by
  refine run_cons_of_returns (fun lines' s => lines' = lines ∧ s = shift')
    (hstep.returns ⟨lines, hlines, rfl, rfl⟩) ?_
  rintro _ _ ⟨rfl, rfl⟩
  exact hrest

end run

end Shift

end GeoWorkload
