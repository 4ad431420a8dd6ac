import GeoWorkload.Program.Loaders
import GeoWorkload.Program.Plan

/-!
# The phases of a run

A run may have two phases, which work on a counter store and a store of documents (`Hall`): its loaders load
the corpus (`Phase.load`), and its workers carry out transactions (`Phase.transact`).  Each phase gives an
exit code.
-/

namespace GeoWorkload

/-- What the phases of a run work on. -/
structure Hall (σ : Type) where
  counters : σ
  documents : DocumentStore

namespace Phase

/-- A record with the number of something, if that is finite. -/
def logCount {σ : Type} (n : Amount) (text : String → String) : Action σ Unit :=
  match n.wholeText? with
  | some shown => Action.log .info (text shown)
  | none => return

/-- The numbers from one to an amount, which has to be whole. -/
def numbersTo : Amount → Except Failure (List Nat)
  | .whole n => .ok (List.range' 1 n.toNat)
  | .real _ => .error .wrongKind

/-- What an error of a loader or worker leads to. -/
def encountered (name : String) (number : Int) (f : Failure) : String :=
  name ++ " " ++ Numeral.padded 2 number ++ " encountered an error: " ++ f.message

variable [Powers] {σ : Type} [CounterStore σ]

/-- Runs loaders of the given numbers on their slices of the documents; gives what they have loaded and the
failures that ended some. -/
def runLoaders (m : Surroundings) (plan : Plan) (docs : List Json.Value) (loaders : List Nat) :
    Action (Hall σ) (LoadCounts × List (Nat × Failure)) :=
  Action.within
    (fun hall => ({ counters := hall.counters, documents := hall.documents } : LoaderCrew σ))
    (fun crew _ => ⟨crew.counters, crew.documents⟩)
    (do
      Loader.runAll plan.settings plan.schema plan.arguments.table m.moment loaders.length docs
        loaders
      Action.look fun crew => (crew.totals, crew.errors))

/-- Loads the documents of the corpus. -/
def load (m : Surroundings) (plan : Plan) (docs : List Json.Value) : Action (Hall σ) Nat := do
  let corpus := plan.configuration.corpus.display
  if docs.isEmpty then
    Action.log .error ("Corpus " ++ corpus ++ " holds no documents")
    return 1
  let loaders := plan.limits.workers.minWith docs.length
  logCount loaders fun shown =>
    "Loading " ++ toString docs.length ++ " document(s) from " ++ corpus ++ " with " ++ shown ++
      " loader(s)"
  let (totals, errors) ← runLoaders m plan docs (← Action.ofExcept (numbersTo loaders))
  Action.log .info ("Load finished in " ++ m.elapsed ++ "s: " ++ totals.text)
  match errors with
  | [] => return 0
  | (loader, f) :: _ =>
    Action.log .error (encountered "Loader" loader f)
    return 1

/-- The seconds that the workers may take, if they are bounded. -/
def deadline (plan : Plan) : Except NumberError (Option Binary64) :=
  match plan.limits.duration with
  | none => .ok none
  | some d => if d.isZero then .ok none else some <$> d.toReal

/-- What a worker of the given number is to do. -/
def task (m : Surroundings) (plan : Plan) (deadline : Option Binary64) (worker : Nat) : Task where
  worker := worker
  operations := (plan.limits.operations.ceiling?).getD 0
  table := plan.arguments.table
  isOver := fun done => deadline.any fun seconds => m.isOver seconds done
  moment := m.moment

/-- Runs workers in turn; one that cannot even start is passed over. -/
def workAll (plan : Plan) : List Task → Action (Crew σ) Unit
  | [] => return
  | task :: rest => do
    let _ ← (Worker.run task plan.settings plan.schema plan.settings.namedProportions).attempt
    workAll plan rest

/-- Runs workers on the given tasks; gives what they have reported. -/
def runWorkers (plan : Plan) (tasks : List Task) : Action (Hall σ) Board :=
  let coverage := plan.settings.namedProportions.map fun (name, _) => (name, (0 : Int))
  Action.within
    (fun hall => (⟨hall.counters, hall.documents, { coverage }⟩ : Crew σ))
    (fun crew _ => ⟨crew.counters, crew.documents⟩)
    (do
      workAll plan tasks
      Action.look (·.board))

/-- Tells what the workers have done. -/
def summarize {σ : Type} (m : Surroundings) (coverage : Coverage) : Action σ Unit := do
  Action.log .info ("Elapsed " ++ m.elapsed ++ "s")
  Action.log .info "Workload coverage summary:"
  let sorted := coverage.mergeSort fun a b => a.1 ≤ b.1
  Action.logAll (sorted.map fun (name, k) => ⟨.info, "  " ++ name ++ ": " ++ Numeral.decimal k⟩)

/-- Carries out the transactions of the workload. -/
def transact (m : Surroundings) (plan : Plan) : Action (Hall σ) Nat := do
  if plan.settings.proportions.isEmpty then
    Action.log .error ("No operation has a positive proportion; set one of: " ++
      String.intercalate ", " (Operation.all.map (·.property)))
    return 1
  let deadline ← Action.ofNumber (deadline plan)
  let unlimited := plan.limits.operations.isZero
  let label := if unlimited then "unlimited" else plan.configuration.operations.display
  logCount plan.limits.workers fun shown =>
    "Launching " ++ shown ++ " worker(s) x " ++ label ++ " operation(s), distribution=" ++
      plan.settings.distribution.name
  if unlimited && deadline.isNone then
    Action.log .warning "Neither operations nor duration bound the run; stop it with Ctrl-C"
  let workers ← Action.ofExcept (numbersTo plan.limits.workers)
  let board ← runWorkers plan (workers.map (task m plan deadline))
  summarize m board.coverage
  match board.errors with
  | (worker, f) :: _ =>
    Action.log .error (encountered "Worker" worker f)
    return 1
  | [] =>
    let failures := board.coverage.failures
    if failures ≠ 0 then
      Action.log .warning (Numeral.decimal failures ++ " operation(s) failed")
    return 0

end Phase

end GeoWorkload
