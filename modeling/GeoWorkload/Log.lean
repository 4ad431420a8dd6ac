/-!
# Log records

What the library tells about its work (`LogRecord`), in order (`Log`).
-/

namespace GeoWorkload

/-- How much a record matters. -/
inductive LogLevel where
  | debug
  | info
  | warning
  | error
deriving DecidableEq, Repr

namespace LogLevel

/-- The name of a level. -/
def name : LogLevel → String
  | debug => "DEBUG"
  | info => "INFO"
  | warning => "WARNING"
  | error => "ERROR"

/-- The place of a level in their order. -/
def rank : LogLevel → Nat
  | debug => 0
  | info => 1
  | warning => 2
  | error => 3

/-- The level of a name. -/
def ofName? (s : String) : Option LogLevel :=
  [debug, info, warning, error].find? fun level => level.name = s

end LogLevel

/-- A record: its level and its text. -/
structure LogRecord where
  level : LogLevel
  text : String
deriving DecidableEq, Repr

/-- The records in the order in which they were made. -/
abbrev Log := Array LogRecord

namespace LogRecord

/-- A record on one line: the level and the text. -/
def line (r : LogRecord) : String := r.level.name ++ " " ++ r.text

/-- Whether a record is shown when records from `least` on are. -/
def isShown (least : LogLevel) (r : LogRecord) : Bool := least.rank ≤ r.level.rank

end LogRecord

end GeoWorkload
