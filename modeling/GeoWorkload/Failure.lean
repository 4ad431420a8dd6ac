import GeoWorkload.Label

/-!
# Failures

Why a step of the workload fails (`Failure`).  Those of the counter store (`Failure.isOfStore`) and
those that a workload counts and goes on after (`Failure.isExpected`) are told from the rest.
-/

namespace GeoWorkload

/-- Why a step fails. -/
inductive Failure where
  /-- A counter that has to be there is not. -/
  | counterMissing (key : Label)
  /-- A counter holds a text that is no integer. -/
  | counterNotInteger (key : Label) (value : String)
  /-- The store refuses a call. -/
  | callRefused (message : String)
  /-- The server of the store cannot be reached. -/
  | unreachable (target cause : String)
  /-- The table of the store cannot be made. -/
  | tableRefused (table cause : String)
  /-- A statement of the store fails at its server. -/
  | statementFailed (call : String) (key : Label) (cause : String)
  /-- No body is stored for a slot. -/
  | slotNotFound (slot : Int) (key : Label)
  /-- A population to draw from is empty. -/
  | populationNotPositive (population : Int)
  /-- The range of a zipfian draw is empty. -/
  | zipfianRangeEmpty (least greatest : Int)
  /-- The exponent of a zipfian draw is out of range. -/
  | thetaOutOfRange (theta : Binary64)
  /-- The range of a draw is empty. -/
  | drawRangeEmpty
  /-- The interval of a draw is empty. -/
  | drawIntervalEmpty (start stop : Int)
  /-- No operation has a positive weight. -/
  | noPositiveWeight
  /-- The weights add up to nothing. -/
  | weightsNotPositive
  /-- The weights add up to no number. -/
  | weightsNotFinite
  /-- No operation has the name. -/
  | unknownOperation (name : String)
  /-- An operation on numbers fails. -/
  | number (error : NumberError)
  /-- A value that has to be an integer is a text that is none. -/
  | notInteger (fault : Numeral.IntegerFault)
  /-- A label cannot be used. -/
  | label (fault : LabelFault)
  /-- A value has the wrong kind. -/
  | wrongKind
  /-- A row lacks the column. -/
  | columnMissing
  /-- The driver of a server fails for a reason of its own. -/
  | driverFailed (cause : String)
  /-- The store needs the name of a database. -/
  | databaseMissing
  /-- What was given as the target of a trace is of a kind that nothing can be written to. -/
  | noStream (kind : String)
deriving DecidableEq, Repr

namespace Failure

/-- Whether the counter store is at fault. -/
def isOfStore : Failure → Bool
  | counterMissing _ | counterNotInteger .. | callRefused _ | unreachable .. | tableRefused ..
  | statementFailed .. => true
  | _ => false

/-- Whether a workload counts the failure and goes on. -/
def isExpected (f : Failure) : Bool :=
  match f with
  | slotNotFound .. => true
  | f => f.isOfStore

/-- The wording of a failure. -/
def message : Failure → String
  | counterMissing key => "counter " ++ key.quoted ++ " is not initialized"
  | counterNotInteger key value =>
    "counter " ++ key.quoted ++ " holds non-integer value " ++ Text.quoted value
  | callRefused message => message
  | unreachable target cause =>
    "unable to connect to counter store at " ++ target ++ ": " ++ cause
  | tableRefused table cause =>
    "unable to create counter table `" ++ table ++ "`: " ++ cause
  | statementFailed call key cause => call ++ " " ++ key.quoted ++ " failed: " ++ cause
  | slotNotFound slot key =>
    "no document stored for slot " ++ Numeral.decimal slot ++ " (" ++ key.display ++ ")"
  | populationNotPositive population =>
    "population must be positive, got " ++ Numeral.decimal population
  | zipfianRangeEmpty least greatest =>
    "ZipfianGenerator range is empty: [" ++ Numeral.decimal least ++ ", " ++
      Numeral.decimal greatest ++ "]"
  | thetaOutOfRange theta => "theta must be in (0, 1), got " ++ theta.text
  | drawRangeEmpty => "empty range for randrange()"
  | drawIntervalEmpty start stop =>
    "empty range for randrange() (" ++ Numeral.decimal start ++ ", " ++ Numeral.decimal stop ++
      ", " ++ Numeral.decimal (stop - start) ++ ")"
  | noPositiveWeight => "no operation has a positive proportion"
  | weightsNotPositive => "Total of weights must be greater than zero"
  | weightsNotFinite => "Total of weights must be finite"
  | unknownOperation name => "unknown operation " ++ Text.quoted name
  | number error => error.message
  | notInteger fault => fault.message
  | label fault => fault.message
  | wrongKind => "the value has the wrong kind"
  | columnMissing => "'v'"
  | driverFailed cause => cause
  | databaseMissing => "MySQLCounterStore requires a database name"
  | noStream kind => "'" ++ kind ++ "' object has no attribute 'write'"

end Failure

end GeoWorkload
