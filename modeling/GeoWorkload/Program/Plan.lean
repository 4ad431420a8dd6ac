import GeoWorkload.Amount
import GeoWorkload.Program.Course

/-!
# The plan of a run

Before a run starts its log is opened, its configuration is read and checked, and the settings of the
workload and the schema are taken from it (`Plan.make`).
-/

namespace GeoWorkload

/-- Where counters are kept. -/
inductive Backend where
  | memory
  | table
deriving DecidableEq, Repr

/-- The backend that a setting names. -/
def Backend.ofValue? : Json.Value → Option Backend
  | .string "memory" => some memory
  | .string "mysql" => some table
  | _ => none

/-- The numbers that bound a run: its workers, the operations of each and the seconds it may take. -/
structure Limits where
  workers : Amount
  operations : Amount
  duration : Option Amount
deriving DecidableEq, Repr

/-- What a run is to do; `source` is where its configuration stands. -/
structure Plan where
  arguments : Arguments
  configuration : Configuration
  source : String
  backend : Backend
  limits : Limits
  settings : Settings
  schema : Schema

namespace Plan

/-- The name of the log file: the one that the command line gives, or one of its own for the time and the
phases. -/
def logName (m : Surroundings) (a : Arguments) : String :=
  if a.logFile.isTruthy then a.logFile.display
  else
    let phases := (if a.load then ["load"] else []) ++ (if a.run then ["run"] else [])
    "logs/geoload_" ++ m.stamp ++ "_" ++ String.intercalate "_" phases ++ ".log"

/-- Opens the log. -/
def openLog (m : Surroundings) (a : Arguments) : Step Unit := do
  let some least := a.logLevel | Step.quit (.escaped .levelMissing)
  let path ← Step.path m (logName m a)
  Step.change (FileChange.openToAppend path)
  modify fun c => { c with logFile := some path, least }
  Step.log m .info ("Logging to " ++ path.text)

/-- Reads the configuration and tells which environment variables were taken into account. -/
def readConfiguration (m : Surroundings) (a : Arguments) : Step (String × Configuration) := do
  let files ← Step.files
  let file ← Step.ofExcept
    ((ConfigurationFile.read files m.homes a.configName).mapError .ofConfigurationFile)
  let (c, notices) ← Step.ofExcept
    (((Configuration.resolve a file.members m.environment).run {}).mapError fun fault =>
      .escaped (.configuration fault))
  if notices.applied ≠ [] then
    Step.log m .info ("Environment overrides applied: " ++ String.intercalate ", " notices.applied)
  if notices.ignored ≠ [] then
    Step.log m .warning ("Ignoring environment overrides (pass --allow-env-overrides to apply): " ++
      String.intercalate ", " notices.ignored)
  return (file.path, c)

/-- The amount that a setting gives, which must not lie below a least one. -/
def amount (least : Int) (refusal : String → Refusal) (v : Json.Value) : Except Exit Amount :=
  if v = .null then .error (.refused (refusal v.display))
  else
    match Amount.ofValue? v with
    | none => .error (.ofFailure .wrongKind)
    | some n => if n.isBelow least then .error (.refused (refusal v.display)) else .ok n

/-- The backend and the limits of a configuration.  What is missing or out of range is refused. -/
def check (a : Arguments) (c : Configuration) : Except Exit (Backend × Limits) := do
  let some backend := Backend.ofValue? c.store |
    throw (.refused (.unknownBackend c.store.display))
  if backend = .table && !c.storeDatabase.isTruthy then throw (.refused .databaseMissing)
  if a.load && !c.corpus.isTruthy then throw (.refused .corpusMissing)
  if !c.output.isTruthy then throw (.refused .outputMissing)
  let workers ← amount 1 .tooFewWorkers c.workers
  let operations ← amount 0 .tooFewOperations c.operations
  let duration ←
    if c.duration = .null then pure none
    else some <$> amount 0 .durationTooShort c.duration
  return (backend, { workers, operations, duration })

/-- The schema of a run: the one that the configuration defines, which is added to the registry, or else the
one that the settings name. -/
def schemaOf (block : Json.Value) (name : Option String) (registry : Registry) :
    Except SchemaError Schema × Registry :=
  if block.isTruthy then
    match Schema.ofValue block with
    | .error e => (.error e, registry)
    | .ok S =>
      match registry.register S with
      | .error e => (.error e, registry)
      | .ok registry => (if name = none then .ok S else registry.get (name.map .text), registry)
  else (registry.get (name.map .text), registry)

/-- Tells what is wrong with a configuration and ends the run. -/
def invalid {α : Type} (m : Surroundings) (source message : String) : Step α := do
  Step.log m .error ("Invalid configuration in " ++ source ++ ": " ++ message)
  Step.quit (.code 1)

/-- The settings that a configuration gives. -/
def readSettings (m : Surroundings) (source : String) (c : Configuration) : Step Settings := do
  let (settings, warnings) := Settings.ofProperties c.properties.named
  Step.logAll m warnings
  match settings with
  | .ok settings => return settings
  | .error e => invalid m source e.message

/-- The schema that a configuration gives. -/
def readSchema (m : Surroundings) (source : String) (c : Configuration) (settings : Settings) :
    Step Schema := do
  let (schema, registry) := schemaOf c.schemaBlock settings.schemaName (← get).world.registry
  modify fun course => { course with world := { course.world with registry } }
  match schema with
  | .ok schema => return schema
  | .error e => if e.isOfContent then invalid m source e.message else Step.quit (.escaped (.schema e))

/-- Makes the plan of a run. -/
def make (m : Surroundings) (a : Arguments) : Step Plan := do
  openLog m a
  let (source, configuration) ← readConfiguration m a
  let (backend, limits) ← Step.ofExcept (check a configuration)
  let settings ← readSettings m source configuration
  let schema ← readSchema m source configuration settings
  Step.log m .info ("Config " ++ source ++ ": schema=" ++ schema.name.display ++ " store=" ++
    configuration.store.display ++ " total_docs=" ++ Numeral.decimal settings.totalDocuments ++
    " record_count=" ++ Numeral.decimal settings.records)
  return { arguments := a, configuration, source, backend, limits, settings, schema }

end Plan

end GeoWorkload
