import GeoWorkload.Counters.Memory
import GeoWorkload.Counters.Table
import GeoWorkload.Program.Phases

/-!
# Running the program

A run of the program as a function of its command line and of what it finds (`Program.run`): the exit, the
world that it leaves behind and the records that it shows.  Whatever happens in the phases, the trace is
written to its file.
-/

namespace GeoWorkload

/-- What a run leaves behind. -/
structure Outcome where
  exit : Exit
  world : World
  log : Log

namespace Program

/-- How the server of a configuration is reached. -/
def access (c : Configuration) : Except Failure Access := do
  let port ← c.storePort.toInteger
  return {
    host := c.storeHost, port := .int port, user := c.storeUser, password := c.storePassword
    socket := c.storeSocket, database := c.storeDatabase }

/-- The table of a configuration. -/
def table (c : Configuration) : String :=
  if c.storeTable.isTruthy then c.storeTable.display else "geo_counters"

/-- The store in a table that a configuration describes. -/
def tableStore (m : Surroundings) (c : Configuration) : Except Failure TableStore := do
  TableStore.make (← access c) (table c) (.int 5) m.server

/-- Opens what the trace goes to; a value that is no text names no file. -/
def openTrace (m : Surroundings) (target : Json.Value) : Step (DocumentStore × Option Path) := do
  match target with
  | .string name =>
    let path ← Step.path m name
    Step.change (FileChange.openToAppend path)
    return (.trace .empty, some path)
  | v => return (.misdirected v.kind, none)

/-- Closes the trace, which writes it to its file. -/
def closeTrace (documents : DocumentStore) (path : Option Path) : Step Unit := do
  match documents, path with
  | .misdirected kind, _ => Step.quit (.ofFailure (.noStream kind))
  | .trace t, some path => Step.change (FileChange.append path t.text.toUTF8)
  | _, _ => return

variable {σ α : Type}

/-- Carries out an action within a run and gives its outcome and the state after it. -/
def perform (m : Surroundings) (x : Action σ α) (s : σ) : Step (Except Failure α × σ) := do
  let (outcome, log) := x.run s #[]
  Step.logAll m log.toList
  return outcome

/-- Goes on with a value, or ends the run with a failure that nothing handles. -/
def unhandled (r : Except Failure α) : Step α := Step.ofExcept (r.mapError .ofFailure)

/-- The documents to load, or the exit code of a corpus that gives none. -/
def readCorpus (m : Surroundings) (plan : Plan) : Step (Except Nat (List Json.Value)) := do
  match plan.configuration.corpus with
  | .string name =>
    match Corpus.ofFile (← Step.files) m.homes name with
    | .ok docs => return .ok docs
    | .error fault =>
      if fault.isExpected then
        Step.log m .error ("Aborted: " ++ fault.message)
        return .error 1
      else Step.quit (.escaped (.corpus fault))
  | _ => Step.quit (.ofFailure .wrongKind)

variable [Powers] [CounterStore σ]

/-- Readies the counters for the workload. -/
def prepare (m : Surroundings) (plan : Plan) (ready : Action σ Unit) (s : σ) : Step σ := do
  let seeding := do
    ready
    CounterStore.seedCounters plan.schema plan.settings.totalDocuments plan.settings.insertStart
  let (r, s) ← perform m seeding s
  match r with
  | .ok () => return s
  | .error f =>
    if f.isOfStore then
      Step.log m .error ("Counter store unavailable: " ++ f.message)
      Step.quit (.code 1)
    else Step.quit (.ofFailure f)

/-- The loading phase: its exit code or the exit that it leads to, and what it leaves behind. -/
def loadPhase (m : Surroundings) (plan : Plan) (hall : Hall σ) :
    Step (Except Exit Nat × Hall σ) := do
  match ← (readCorpus m plan).attempt with
  | .error e => return (.error e, hall)
  | .ok (.error code) => return (.ok code, hall)
  | .ok (.ok docs) =>
    let (r, hall) ← perform m (Phase.load m plan docs) hall
    return (r.mapError .ofFailure, hall)

/-- The transaction phase: its exit code or the exit that it leads to, and what it leaves behind. -/
def transactPhase (m : Surroundings) (plan : Plan) (hall : Hall σ) :
    Step (Except Exit Nat × Hall σ) := do
  let (r, hall) ← perform m (Phase.transact m plan) hall
  return (r.mapError .ofFailure, hall)

/-- The phases that the command line asks for; the second runs only if the first gives zero. -/
def phases (m : Surroundings) (plan : Plan) (hall : Hall σ) : Step (Except Exit Nat × Hall σ) := do
  let (r, hall) ← if plan.arguments.load then loadPhase m plan hall else pure (.ok 0, hall)
  match r with
  | .ok 0 => if plan.arguments.run then transactPhase m plan hall else return (r, hall)
  | _ => return (r, hall)

/-- Runs the phases between opening and closing the trace. -/
def work (m : Surroundings) (plan : Plan) (s : σ) : Step Nat := do
  let (documents, path) ← openTrace m plan.configuration.output
  let (r, hall) ← phases m plan ⟨s, documents⟩
  closeTrace hall.documents path
  let (closing, _) ← perform m CounterStore.close hall.counters
  unhandled closing
  let code ← Step.ofExcept r
  let shown := (path.map (·.text)).getD "None"
  Step.log m .info ("Trace: " ++ toString hall.documents.records ++ " record(s) written to " ++ shown)
  return code

/-- Does what a plan says. -/
def carryOut (m : Surroundings) (plan : Plan) : Step Nat := do
  match plan.backend with
  | .memory => work m plan (← prepare m plan (pure ()) MemoryStore.empty)
  | .table =>
    let store ← unhandled (tableStore m plan.configuration)
    work m plan (← prepare m plan TableStore.ensureTable store)

/-- The steps of a run with the given command line. -/
def steps (m : Surroundings) (args : List String) : Step Nat := do
  let a ← Step.ofExcept ((Arguments.ofList args).mapError .ofReadingEnd)
  carryOut m (← Plan.make m a)

/-- The names of the files that a run may look at, as far as the files at hand tell. -/
def fileNames (m : Surroundings) (args : List String) (files : Files) : List String :=
  match Arguments.ofList args with
  | .error _ => []
  | .ok a =>
    let others := match ConfigurationFile.read files m.homes a.configName with
      | .error _ => []
      | .ok file =>
        match (Configuration.resolve a file.members m.environment).run {} with
        | .error _ => []
        | .ok (c, _) => [c.corpus.display, c.output.display]
    a.configName :: Plan.logName m a :: others

/-- Runs the program. -/
def run (m : Surroundings) (args : List String) (world : World) : Outcome :=
  let (r, course) := (steps m args).run.run { world }
  { exit := match r with
      | .ok code => .code code
      | .error e => e
    world := course.world
    log := course.log }

end Program

end GeoWorkload
