import GeoWorkload.Workload.Transaction

/-!
# Workers

A worker carries out transactions with a generator of its own until it has made as many as it was asked to,
its time is up, or the workers are stopped (`Worker.run`).  A failure that no transaction settles ends the
worker and stops the others.  What it did is counted by operation (`Coverage`) and added to the board that
the workers share (`Board`).
-/

namespace GeoWorkload

/-- How often each operation was carried out, failed ones under a name of their own. -/
abbrev Coverage := List (String × Int)

namespace Coverage

/-- The count under a name. -/
def get (c : Coverage) (name : String) : Int :=
  ((c.find? fun entry => entry.1 = name).map (·.2)).getD 0

/-- The coverage with an amount added under a name. -/
def add : (c : Coverage) → (name : String) → (amount : Int) → Coverage
  | [], name, amount => [(name, amount)]
  | (n, k) :: rest, name, amount =>
    if n = name then (n, k + amount) :: rest else (n, k) :: add rest name amount

/-- The coverage with all amounts of another added. -/
def merge (c d : Coverage) : Coverage := d.foldl (fun c entry => c.add entry.1 entry.2) c

/-- What ends the names under which failed operations are counted. -/
def failedEnding : String := "_FAILED"

/-- The name under which an operation with a status is counted. -/
def entryName (name : String) (status : Status) : String :=
  if status.isOk then name else name ++ failedEnding

/-- The number of failed operations. -/
def failures (c : Coverage) : Int :=
  (c.filter fun entry => entry.1.endsWith failedEnding).foldl (fun n entry => n + entry.2) 0

end Coverage

/-- What workers share of their progress: the coverage, the failures that ended workers, and whether all are
to stop. -/
structure Board where
  coverage : Coverage := []
  errors : List (Int × Failure) := []
  stopped : Bool := false
deriving DecidableEq, Repr

/-- What workers share: the counter store, the store of documents and the board. -/
structure Crew (σ : Type) where
  counters : σ
  documents : DocumentStore
  board : Board := {}

/-- What a worker is asked to do: under which number, how many transactions (no positive number means no
limit) on which table, and after how many of them its time is up.  Where the settings give no seed, the
moment takes its place. -/
structure Task where
  worker : Int
  operations : Int
  table : Json.Value
  isOver : Nat → Bool := fun _ => false
  moment : Int := 0

namespace Task

/-- The greatest number of transactions; more than any run makes where there is no limit. -/
def budget (t : Task) : Nat := if 0 < t.operations then t.operations.toNat else Nat.pow 2 64

end Task

namespace Worker

/-- The seed of the source that a worker draws from. -/
def seed (common worker : Int) : Int := common + worker

/-- The source that a worker draws from. -/
def source (common worker : Int) : RandomSource := .ofSeed (seed common worker)

/-- The generator of a worker. -/
def generator (settings : Settings) (schema : Schema) (moment worker : Int) : Generator :=
  .make settings schema (source (settings.seed.getD moment) worker)

/-- What a worker has before it: its station, its own coverage and the shared board. -/
structure Desk (σ : Type) where
  station : Station σ
  coverage : Coverage := []
  board : Board

namespace Desk

variable {σ : Type}

/-- The desk of a worker with a generator. -/
def ofCrew (generator : Generator) (crew : Crew σ) : Desk σ where
  station := ⟨generator, crew.counters, crew.documents⟩
  board := crew.board

/-- What the crew has after a worker left its desk. -/
def toCrew (desk : Desk σ) : Crew σ :=
  ⟨desk.station.counters, desk.station.documents, desk.board⟩

end Desk

variable [Powers] {σ : Type} [CounterStore σ]

/-- Carries out one transaction and counts it; `done` is its number from one. -/
def turn (task : Task) (mix : Mix String) (done : Nat) : Action (Desk σ) Unit := do
  let (name, status) ← Action.within (·.station) (fun station desk => { desk with station })
    (Transaction.next task.table mix)
  Action.change fun desk =>
    { desk with coverage := desk.coverage.add (Coverage.entryName name status) 1 }
  Action.log .debug ("[W" ++ Numeral.padded 2 task.worker ++ "][" ++ Numeral.padded 5 done ++ "] " ++
    name ++ " " ++ status.name)

/-- Carries out transactions, at most as many as the budget allows after the first `done`. -/
def turns (task : Task) (mix : Mix String) : (budget done : Nat) → Action (Desk σ) Unit
  | 0, _ => return
  | budget + 1, done => do
    if (← Action.look (·.board.stopped)) || task.isOver done then return
    turn task mix (done + 1)
    turns task mix budget (done + 1)

/-- Notes the failure that ended a worker and stops all. -/
def abort (task : Task) (f : Failure) : Action (Desk σ) Unit := do
  Action.change fun desk =>
    { desk with board :=
      { desk.board with errors := desk.board.errors ++ [(task.worker, f)], stopped := true } }
  Action.log .error ("Worker " ++ Numeral.padded 2 task.worker ++ " aborted")

/-- Adds the coverage of the worker to the board. -/
def report : Action (Desk σ) Unit :=
  Action.change fun desk =>
    { desk with board := { desk.board with coverage := desk.board.coverage.merge desk.coverage } }

/-- The work of a worker at its desk. -/
def atDesk (task : Task) (mix : Mix String) : Action (Desk σ) Unit := do
  match ← (turns task mix task.budget 0).attempt with
  | .ok () => pure ()
  | .error f => abort task f
  report

/-- Runs a worker on a mix of operations with the given proportions and closes its use of the counter
store. -/
def run (task : Task) (settings : Settings) (schema : Schema)
    (proportions : List (String × Binary64)) : Action (Crew σ) Unit := do
  let mix ← Action.ofExcept (Mix.ofWeights proportions)
  let generator := generator settings schema task.moment task.worker
  Action.within (Desk.ofCrew generator) (fun desk _ => desk.toCrew) (atDesk task mix)
  Action.within (·.counters) (fun counters crew => { crew with counters }) CounterStore.close

end Worker

end GeoWorkload
