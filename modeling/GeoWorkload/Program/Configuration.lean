import GeoWorkload.Conversion
import GeoWorkload.Label.Map
import GeoWorkload.Program.Arguments

/-!
# Configuration

What a run goes by (`Configuration`).  Each setting is taken from the command line; if it is not given
there, from its environment variable, provided that those are allowed; and else from the configuration file
or a default (`Setting.resolve`).  Variables that were applied and those that were set but not allowed are
listed.
-/

namespace GeoWorkload

/-- The properties of a workload, in order; any label that is a key may name one. -/
abbrev Properties := LabelMap Json.Value

namespace Properties

/-- The properties of the members of an object. -/
def ofMembers (members : Json.Members) : Properties :=
  members.map fun (name, value) => (.text name, value)

/-- The properties that a text names. -/
def named (props : Properties) : Json.Members :=
  props.filterMap fun (name, value) => name.toText.toOption.map fun name => (name, value)

end Properties

/-- What a run goes by. -/
structure Configuration where
  store : Json.Value
  storeHost : Json.Value
  storePort : Json.Value
  storeUser : Json.Value
  storePassword : Json.Value
  storeSocket : Json.Value
  storeDatabase : Json.Value
  storeTable : Json.Value
  corpus : Json.Value
  workers : Json.Value
  operations : Json.Value
  duration : Json.Value
  output : Json.Value
  properties : Properties
  schemaBlock : Json.Value
deriving DecidableEq, Repr

namespace Configuration

/-- The members of an object that show a configuration; of properties whose names read the same the last
is shown. -/
def toMembers (c : Configuration) : Json.Members := [
  ("store", c.store), ("store_host", c.storeHost), ("store_port", c.storePort),
  ("store_user", c.storeUser), ("store_password", c.storePassword),
  ("store_socket", c.storeSocket), ("store_database", c.storeDatabase),
  ("store_table", c.storeTable), ("corpus", c.corpus), ("workers", c.workers),
  ("operations", c.operations), ("duration", c.duration), ("output", c.output),
  ("workload_properties", .object
    (c.properties.foldl (fun (m : Json.Members) (name, v) => m.set name.display v) [])),
  ("schema_block", c.schemaBlock)]

end Configuration

/-- Why no configuration comes about. -/
inductive ConfigurationFault where
  /-- A section is neither an object nor empty. -/
  | sectionNotObject
  /-- The properties are neither an object nor a list. -/
  | propertiesNotList
  /-- An entry of a list of properties is no pair, nor anything with items. -/
  | entryNotPair (index : Nat)
  /-- An entry of a list of properties has not two items. -/
  | entryLength (index length : Nat)
  /-- The key of a property cannot be one. -/
  | notKey (fault : LabelFault)
  /-- The assignments of the command line are no list. -/
  | assignmentsNotList
  /-- An assignment of the command line is nothing with items. -/
  | assignmentNotPair
  /-- An assignment of the command line has not two items. -/
  | assignmentLength (length : Nat)
  /-- An environment variable has to hold an integer. -/
  | notInteger (fault : Numeral.IntegerFault)
  /-- An environment variable has to hold a number. -/
  | notReal (fault : Numeral.RealFault)
deriving DecidableEq, Repr

namespace ConfigurationFault

/-- The wording of a configuration fault. -/
def message : ConfigurationFault → String
  | sectionNotObject => "a section of a configuration is an object"
  | propertiesNotList => "properties are an object or a list of pairs"
  | entryNotPair index =>
    "cannot convert dictionary update sequence element #" ++ toString index ++ " to a sequence"
  | entryLength index length =>
    "dictionary update sequence element #" ++ toString index ++ " has length " ++ toString length ++
      "; 2 is required"
  | notKey fault => fault.message
  | assignmentsNotList => "assignments are a list"
  | assignmentNotPair => "an assignment is a key and a value"
  | assignmentLength length =>
    if length < 2 then "not enough values to unpack (expected 2, got " ++ toString length ++ ")"
    else "too many values to unpack (expected 2)"
  | notInteger fault => fault.message
  | notReal fault => fault.message

end ConfigurationFault

/-- What was decided about the environment variables that are set: each applied or ignored, in the order
of the settings. -/
structure Notices where
  applied : List String := []
  ignored : List String := []
deriving DecidableEq, Repr

/-- What environment variables hold. -/
abbrev Environment := List (String × String)

/-- A setting: what the command line says, null if nothing, the environment variable with the way to read
it, and what else holds. -/
structure Setting where
  given : Json.Value
  envName : Option String := none
  read : String → Except ConfigurationFault Json.Value := fun s => .ok (.string s)
  fallback : Json.Value

/-- A computation of settings that notes what becomes of environment variables. -/
abbrev Resolution := StateT Notices (Except ConfigurationFault)

namespace Setting

/-- Reads a variable that holds an integer. -/
def readInteger (s : String) : Except ConfigurationFault Json.Value :=
  ((Numeral.readInteger s).map .int).mapError .notInteger

/-- Reads a variable that holds a number. -/
def readReal (s : String) : Except ConfigurationFault Json.Value :=
  ((Numeral.readReal s).map .float).mapError .notReal

/-- The variable of a setting and its value, if the command line does not give the setting and the
variable is set and not empty. -/
def consulted? (env : Environment) (s : Setting) : Option (String × String) :=
  match s.given, s.envName with
  | .null, some name =>
    ((env.lookup name).filter (· ≠ "")).map fun value => (name, value)
  | _, _ => none

/-- The value of a setting. -/
def resolve (env : Environment) (allowed : Bool) (s : Setting) : Resolution Json.Value := do
  match s.consulted? env with
  | none => return if s.given = .null then s.fallback else s.given
  | some (name, value) =>
    if allowed then
      let v ← s.read value
      modify fun n => { n with applied := n.applied ++ [name] }
      return v
    else
      modify fun n => { n with ignored := n.ignored ++ [name] }
      return s.fallback

end Setting

namespace Configuration

/-- A section of a configuration file; one that is empty, zero or absent has no members. -/
def sectionOf (config : Json.Members) (name : String) : Except ConfigurationFault Json.Members :=
  match config.get name with
  | .object members => .ok members
  | v => if v.isTruthy then .error .sectionNotObject else .ok []

/-- The member of a section, or a default where it is absent. -/
def member (members : Json.Members) (name : String) (default : Json.Value) : Json.Value :=
  (members.get? name).getD default

/-- The name of a property that a value is. -/
def nameOf (v : Json.Value) : Except ConfigurationFault Label :=
  match (Label.ofValue v).keyFault? with
  | some fault => .error (.notKey fault)
  | none => .ok (.ofValue v)

/-- The items of a value: those of an array, the characters of a text or the names of an object. -/
def itemsOf? : Json.Value → Option (List Json.Value)
  | .array items => some items
  | .string s => some (s.toList.map fun c => .string (String.ofList [c]))
  | .object members => some (members.map fun member => .string member.1)
  | _ => none

/-- The properties that a list of pairs gives, added to others; the first entry has the given index. -/
def addPairs : (props : Properties) → (index : Nat) → List Json.Value →
    Except ConfigurationFault Properties
  | props, _, [] => .ok props
  | props, index, entry :: rest =>
    match itemsOf? entry with
    | some [key, value] => do
      addPairs (props.set (← nameOf key) value) (index + 1) rest
    | some items => .error (.entryLength index items.length)
    | none => .error (.entryNotPair index)

/-- The properties that a value gives: the members of an object, or the pairs of a list. -/
def propertiesOf (v : Json.Value) : Except ConfigurationFault Properties :=
  match v with
  | .object members => .ok (.ofMembers members)
  | v =>
    if !v.isTruthy then .ok []
    else
      match itemsOf? v with
      | some items => addPairs [] 0 items
      | none => .error .propertiesNotList

/-- The properties with those that assignments give, each a key and a value. -/
def assign : (props : Properties) → List Json.Value → Except ConfigurationFault Properties
  | props, [] => .ok props
  | props, assignment :: rest =>
    match itemsOf? assignment with
    | some [key, value] => do assign (props.set (← nameOf key) value) rest
    | some items => .error (.assignmentLength items.length)
    | none => .error .assignmentNotPair

/-- The assignments that a value lists. -/
def assignmentsOf (v : Json.Value) : Except ConfigurationFault (List Json.Value) :=
  if !v.isTruthy then .ok []
  else
    match itemsOf? v with
    | some items => .ok items
    | none => .error .assignmentsNotList

/-- The properties with one put under a name unless it is null. -/
def putGiven (props : Properties) (name : String) (v : Json.Value) : Properties :=
  if v = .null then props else props.set name v

/-- The properties of the workload: those of the configuration file, the distribution and the seed where
they are set, and then the assignments of the command line. -/
def workloadProperties (props : Properties) (distribution seed assignments : Json.Value) :
    Except ConfigurationFault Properties := do
  assign (putGiven (putGiven props "geo_request_distribution" distribution) "geo_seed" seed)
    (← assignmentsOf assignments)

/-- The configuration of a run. -/
def resolve (a : Arguments) (config : Json.Members) (env : Environment) :
    Resolution Configuration := do
  let value := fun (s : Setting) => s.resolve env a.allowsEnvironment
  let part ← sectionOf config "counter_store"
  let store ← value {
    given := a.store, envName := some "COUNTER_BACKEND"
    fallback := member part "backend" (.string "memory") }
  let storeHost ← value {
    given := a.storeHost, envName := some "COUNTER_HOST"
    fallback := member part "host" (.string "127.0.0.1") }
  let storePort ← value {
    given := a.storePort, envName := some "COUNTER_PORT", read := Setting.readInteger
    fallback := member part "port" (.int 3306) }
  let storeUser ← value {
    given := a.storeUser, envName := some "COUNTER_USER"
    fallback := member part "user" (.string "root") }
  let storePassword ← value {
    given := a.storePassword, envName := some "COUNTER_PASSWORD"
    fallback := part.get "password" }
  let storeSocket ← value {
    given := a.storeSocket, envName := some "COUNTER_SOCKET"
    fallback := part.get "socket" }
  let storeDatabase ← value {
    given := a.storeDatabase, envName := some "COUNTER_DATABASE"
    fallback := part.get "database" }
  let storeTable ← value { given := a.storeTable, fallback := part.get "table" }
  let part ← sectionOf config "load"
  let corpus ← value {
    given := a.corpus, envName := some "GEO_CORPUS", fallback := part.get "corpus" }
  let part ← sectionOf config "run"
  let workers ← value {
    given := a.workers, envName := some "GEO_WORKERS", read := Setting.readInteger
    fallback := member part "workers" (.int 1) }
  let operations ← value {
    given := a.operations, envName := some "GEO_OPERATIONS", read := Setting.readInteger
    fallback := member part "operations" (.int 1000) }
  let duration ← value {
    given := a.duration, envName := some "GEO_DURATION", read := Setting.readReal
    fallback := part.get "duration_seconds" }
  let output ← value {
    given := a.output, envName := some "GEO_OUTPUT", fallback := part.get "output" }
  let props ← propertiesOf (config.get "workload")
  let distribution ← value {
    given := a.distribution, envName := some "GEO_DISTRIBUTION", fallback := .null }
  let seed ← value {
    given := a.seed, envName := some "GEO_SEED", read := Setting.readInteger
    fallback := .null }
  let properties ← workloadProperties props distribution seed a.properties
  return {
    store, storeHost, storePort, storeUser, storePassword, storeSocket, storeDatabase, storeTable
    corpus, workers, operations, duration, output, properties
    schemaBlock := config.get "schema" }

end Configuration

end GeoWorkload
