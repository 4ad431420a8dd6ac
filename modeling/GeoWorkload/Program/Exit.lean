import GeoWorkload.Corpus
import GeoWorkload.Failure
import GeoWorkload.Program.Arguments
import GeoWorkload.Program.Configuration
import GeoWorkload.Program.ConfigurationFile
import GeoWorkload.Schema.Definition

/-!
# Exits

How a run of the program ends (`Exit`): with a code, with help, with a command line that cannot be read, with
a refusal to go on (`Refusal`), or with an error that nothing handles (`Escape`).
-/

namespace GeoWorkload

/-- Why the program refuses to go on.  A setting that is out of range is given as messages show it. -/
inductive Refusal where
  | configuration (fault : ConfigurationFileFault)
  | unknownBackend (shown : String)
  | databaseMissing
  | corpusMissing
  | outputMissing
  | tooFewWorkers (shown : String)
  | tooFewOperations (shown : String)
  | durationTooShort (shown : String)
deriving DecidableEq, Repr

/-- The wording of a refusal. -/
def Refusal.message : Refusal → String
  | configuration fault => fault.message
  | unknownBackend shown => "Unknown counter store backend: " ++ shown
  | databaseMissing => "The mysql counter store requires a database (--store-database)."
  | corpusMissing => "--load requires a corpus (--corpus or load.corpus in the config)."
  | outputMissing => "An output trace is required (--output or run.output in the config)."
  | tooFewWorkers shown => "workers must be >= 1 (got " ++ shown ++ ")"
  | tooFewOperations shown => "operations must be >= 0 (got " ++ shown ++ ")"
  | durationTooShort shown => "duration must be >= 0 (got " ++ shown ++ ")"

/-- An error that the program does not handle. -/
inductive Escape where
  | failure (failure : Failure)
  | file (fault : FileFault)
  | configurationFile (fault : ConfigurationFileFault)
  | configuration (fault : ConfigurationFault)
  | schema (error : SchemaError)
  | corpus (fault : CorpusFileFault)
  /-- The option for the log level was given nothing. -/
  | levelMissing
deriving DecidableEq, Repr

/-- The wording of an error that is not handled. -/
def Escape.message : Escape → String
  | failure f => f.message
  | file fault => fault.message
  | configurationFile fault => fault.message
  | configuration fault => fault.message
  | schema error => error.message
  | corpus fault => fault.message
  | levelMissing => "a log level is a name"

/-- How a run of the program ends. -/
inductive Exit where
  | code (code : Nat)
  | help
  | usage (error : UsageError)
  | refused (refusal : Refusal)
  | escaped (error : Escape)
deriving DecidableEq, Repr

namespace Exit

/-- The code that the program hands to who started it. -/
def status : Exit → Nat
  | code n => n
  | help => 0
  | usage _ => 2
  | refused _ | escaped _ => 1

/-- The exit that ends the reading of a command line. -/
def ofReadingEnd : ReadingEnd → Exit
  | .help => help
  | .usage e => usage e

/-- The exit that a fault of the configuration file leads to. -/
def ofConfigurationFile (fault : ConfigurationFileFault) : Exit :=
  if fault.isRefused then refused (.configuration fault) else escaped (.configurationFile fault)

/-- The exit of a failure that nothing handles. -/
def ofFailure (f : Failure) : Exit := escaped (.failure f)

end Exit

end GeoWorkload
