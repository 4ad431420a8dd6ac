import GeoWorkload.Log
import GeoWorkload.Sampling.Sampler
import GeoWorkload.Settings.Properties

/-!
# Command line arguments

What a command line says (`Arguments`).  An option may be shortened as long as it stays clear which one is
meant, its value may follow it or stand after an equals sign, and what belongs to no option is refused
(`Arguments.ofList`).  An option whose own value is two dashes is given nothing, which is kept as an empty
list.  `UsageError` says what is wrong with a command line.
-/

namespace GeoWorkload

/-- What a command line says: the value of each setting, null where it is not given.  `properties` is
null or lists the assignments, each a key and a value; `logLevel` is absent where it was given
nothing. -/
structure Arguments where
  load : Bool := false
  run : Bool := false
  config : Json.Value := .null
  allowsEnvironment : Bool := false
  store : Json.Value := .null
  storeHost : Json.Value := .null
  storePort : Json.Value := .null
  storeUser : Json.Value := .null
  storePassword : Json.Value := .null
  storeSocket : Json.Value := .null
  storeDatabase : Json.Value := .null
  storeTable : Json.Value := .null
  corpus : Json.Value := .null
  output : Json.Value := .null
  table : Json.Value := .string "usertable"
  workers : Json.Value := .null
  operations : Json.Value := .null
  duration : Json.Value := .null
  distribution : Json.Value := .null
  seed : Json.Value := .null
  properties : Json.Value := .null
  logLevel : Option LogLevel := some .info
  logFile : Json.Value := .null
deriving DecidableEq, Repr

/-- Why a text is no value of an option. -/
inductive ValueFault where
  | notInteger (value : String)
  | notReal (value : String)
  | notAmong (value : String) (choices : List String)
  | notAssignment (fault : AssignmentFault)
deriving DecidableEq, Repr

/-- The wording of a value fault. -/
def ValueFault.message : ValueFault → String
  | notInteger value => "invalid int value: " ++ Text.quoted value
  | notReal value => "invalid float value: " ++ Text.quoted value
  | notAmong value choices =>
    "invalid choice: " ++ Text.quoted value ++ " (choose from " ++
      String.intercalate ", " (choices.map Text.quoted) ++ ")"
  | notAssignment fault => fault.message

/-- What is wrong with a command line; `option` shows all names of the option. -/
inductive UsageError where
  | ambiguous (option : String) (matching : List String)
  | valueMissing (option : String)
  | valueIgnored (option value : String)
  | badValue (option : String) (fault : ValueFault)
  | unrecognized (arguments : List String)
  | nothingToDo
deriving DecidableEq, Repr

/-- The wording of a usage error. -/
def UsageError.message : UsageError → String
  | ambiguous option matching =>
    "ambiguous option: " ++ option ++ " could match " ++ String.intercalate ", " matching
  | valueMissing option => "argument " ++ option ++ ": expected one argument"
  | valueIgnored option value =>
    "argument " ++ option ++ ": ignored explicit argument " ++ Text.quoted value
  | badValue option fault => "argument " ++ option ++ ": " ++ fault.message
  | unrecognized arguments => "unrecognized arguments: " ++ String.intercalate " " arguments
  | nothingToDo => "at least one of --load or --run is required"

/-- What ends the reading of a command line. -/
inductive ReadingEnd where
  /-- Help was asked for. -/
  | help
  | usage (error : UsageError)
deriving DecidableEq, Repr

/-- What an option does: it shows help, switches something on, or reads a value and puts it in its
place. -/
inductive OptionEffect where
  | help
  | flag (set : Arguments → Arguments)
  | value (read : String → Except ValueFault Json.Value) (set : Arguments → Json.Value → Arguments)

/-- An option: its names and what it does. -/
structure CommandOption where
  names : List String
  effect : OptionEffect

namespace CommandOption

/-- All names of an option. -/
def shownName (o : CommandOption) : String := String.intercalate "/" o.names

/-- An option that takes any text. -/
def ofText (name : String) (set : Arguments → Json.Value → Arguments) : CommandOption :=
  ⟨[name], .value (fun s => .ok (.string s)) set⟩

/-- An option that takes an integer. -/
def ofInteger (name : String) (set : Arguments → Json.Value → Arguments) : CommandOption :=
  let read := fun s =>
    match Numeral.readInteger s with
    | .ok z => .ok (.int z)
    | .error _ => .error (.notInteger s)
  ⟨[name], .value read set⟩

/-- An option that takes a number. -/
def ofReal (name : String) (set : Arguments → Json.Value → Arguments) : CommandOption :=
  let read := fun s =>
    match Numeral.readReal s with
    | .ok x => .ok (.float x)
    | .error _ => .error (.notReal s)
  ⟨[name], .value read set⟩

/-- An option that takes one of a few texts. -/
def ofChoice (name : String) (choices : List String) (set : Arguments → Json.Value → Arguments) :
    CommandOption :=
  let read := fun s =>
    if choices.contains s then .ok (.string s) else .error (.notAmong s choices)
  ⟨[name], .value read set⟩

/-- An option without a value. -/
def ofFlag (name : String) (set : Arguments → Arguments) : CommandOption := ⟨[name], .flag set⟩

/-- The option that adds a property. -/
def property : CommandOption :=
  let read := fun s =>
    match readAssignment s with
    | .ok (key, value) => .ok (.array [.string key, .string value])
    | .error fault => .error (.notAssignment fault)
  ⟨["-p", "--property"], .value read fun a v =>
    { a with properties := .array (a.properties.items ++ [v]) }⟩

/-- The level that a value names, if it is a text. -/
def levelOf : Json.Value → Option LogLevel
  | .string s => some ((LogLevel.ofName? s).getD .info)
  | _ => none

/-- All options. -/
def all : List CommandOption := [
  ⟨["-h", "--help"], .help⟩,
  ofFlag "--load" fun a => { a with load := true },
  ofFlag "--run" fun a => { a with run := true },
  ofText "--config" fun a v => { a with config := v },
  ofFlag "--allow-env-overrides" fun a => { a with allowsEnvironment := true },
  ofChoice "--store" ["memory", "mysql"] fun a v => { a with store := v },
  ofText "--store-host" fun a v => { a with storeHost := v },
  ofInteger "--store-port" fun a v => { a with storePort := v },
  ofText "--store-user" fun a v => { a with storeUser := v },
  ofText "--store-password" fun a v => { a with storePassword := v },
  ofText "--store-socket" fun a v => { a with storeSocket := v },
  ofText "--store-database" fun a v => { a with storeDatabase := v },
  ofText "--store-table" fun a v => { a with storeTable := v },
  ofText "--corpus" fun a v => { a with corpus := v },
  ofText "--output" fun a v => { a with output := v },
  ofText "--table" fun a v => { a with table := v },
  ofInteger "--workers" fun a v => { a with workers := v },
  ofInteger "--operations" fun a v => { a with operations := v },
  ofReal "--duration" fun a v => { a with duration := v },
  ofChoice "--distribution" ["uniform", "zipfian", "latest"]
    fun a v => { a with distribution := v },
  ofInteger "--seed" fun a v => { a with seed := v },
  property,
  ofChoice "--log-level" ["DEBUG", "INFO", "WARNING", "ERROR"]
    fun a v => { a with logLevel := levelOf v },
  ofText "--log-file" fun a v => { a with logFile := v }]

/-- The names of all options with the options, in order. -/
def named : List (String × CommandOption) :=
  all.flatMap fun o => o.names.map fun name => (name, o)

/-- The option of exactly this name. -/
def find? (name : String) : Option CommandOption :=
  (named.find? fun entry => entry.1 = name).map (·.2)

end CommandOption

namespace Arguments

/-- The name of the configuration file, empty where none is given. -/
def configName (a : Arguments) : String :=
  match a.config with
  | .string name => name
  | _ => ""

/-- What one text of a command line is. -/
inductive Word where
  /-- No option. -/
  | plain
  /-- The two dashes after which nothing is an option. -/
  | divider
  /-- An option that does not exist. -/
  | unknown
  /-- An option, perhaps with a value of its own. -/
  | option (o : CommandOption) (value : Option String)

/-- Splits a text at its first equals sign. -/
def splitValue (s : String) : String × Option String :=
  let chars := s.toList
  match chars.dropWhile (· ≠ '=') with
  | _ :: value => (String.ofList (chars.takeWhile (· ≠ '=')), some (String.ofList value))
  | [] => (s, none)

/-- Whether a text is a negative number without an exponent; one line end may follow. -/
def isNegativeNumber (s : String) : Bool :=
  let digit := fun c => (Text.digitValue? c).isSome
  match s.toList with
  | '-' :: rest =>
    let rest := if rest.getLast? = some '\n' then rest.dropLast else rest
    match rest.dropWhile digit with
    | [] => !rest.isEmpty
    | '.' :: fraction => !fraction.isEmpty && fraction.all digit
    | _ => false
  | _ => false

/-- The options that a shortened name may stand for, with the names that match and the value that
comes with them: after two dashes whatever starts like it, after one dash an option of one letter with
what follows it as its value, or whatever starts like the whole text. -/
def candidates (s : String) : List (String × CommandOption × Option String) :=
  let starts := fun (part name : String) => part.toList.isPrefixOf name.toList
  match s.toList with
  | '-' :: '-' :: _ =>
    let (part, value) := splitValue s
    CommandOption.named.filterMap fun (name, o) =>
      if starts part name then some (name, o, value) else none
  | '-' :: letter :: rest =>
    CommandOption.named.filterMap fun (name, o) =>
      if name = String.ofList ['-', letter] then some (name, o, some (String.ofList rest))
      else if starts s name then some (name, o, none)
      else none
  | _ => []

/-- The option of exactly this name, or of the name before an equals sign. -/
def unshortened? (s : String) : Option Word :=
  match CommandOption.find? s with
  | some o => some (.option o none)
  | none =>
    match splitValue s with
    | (name, some value) => (CommandOption.find? name).map fun o => .option o (some value)
    | _ => none

/-- What a text that starts with a dash is. -/
def dashed (s : String) : Except UsageError Word :=
  match candidates s with
  | [(_, o, value)] => .ok (.option o value)
  | [] => .ok (if isNegativeNumber s || s.toList.contains ' ' then .plain else .unknown)
  | several => .error (.ambiguous s (several.map (·.1)))

/-- What a text is, before any two dashes. -/
def word (s : String) : Except UsageError Word :=
  match s.toList with
  | '-' :: rest =>
    match unshortened? s with
    | some w => .ok w
    | none => if rest.isEmpty then .ok .plain else dashed s
  | _ => .ok .plain

/-- What the texts of a command line are. -/
def words : List String → Except UsageError (List (String × Word))
  | [] => .ok []
  | "--" :: rest => .ok (("--", .divider) :: rest.map fun s => (s, .plain))
  | s :: rest => do
    let w ← word s
    return (s, w) :: (← words rest)

/-- Reads a value for an option and puts it in its place. -/
def takeValue (o : CommandOption) (read : String → Except ValueFault Json.Value)
    (set : Arguments → Json.Value → Arguments) (a : Arguments) (value : String) :
    Except ReadingEnd Arguments :=
  ((read value).map (set a)).mapError fun fault => .usage (.badValue o.shownName fault)

/-- Takes the value that an option brings with it; two dashes give it nothing. -/
def takeOwn (o : CommandOption) (read : String → Except ValueFault Json.Value)
    (set : Arguments → Json.Value → Arguments) (a : Arguments) (value : String) :
    Except ReadingEnd Arguments :=
  if value = "--" then .ok (set a (.array [])) else takeValue o read set a value

/-- What the letters after one that asks for help lead to: each names an option, and the last may be one
that takes a value, either the letters after it or the next text, if one follows. -/
def helpWithLetters (o : CommandOption) (valueFollows : Bool) : List Char → ReadingEnd
  | [] => .help
  | letter :: rest =>
    match CommandOption.find? (String.ofList ['-', letter]) with
    | none => .usage (.valueIgnored o.shownName (String.ofList (letter :: rest)))
    | some next =>
      match next.effect with
      | .value .. =>
        if rest.isEmpty && !valueFollows then .usage (.valueMissing next.shownName) else .help
      | _ => helpWithLetters next valueFollows rest

/-- What a value with the option for help leads to; after a single dash it holds the letters of further
options. -/
def helpWith (name : String) (o : CommandOption) (value : String) (valueFollows : Bool) :
    ReadingEnd :=
  match name.toList with
  | '-' :: '-' :: _ => .usage (.valueIgnored o.shownName value)
  | _ =>
    if value = "" then .usage (.valueIgnored o.shownName value)
    else helpWithLetters o valueFollows value.toList

/-- Whether the words start with one that is no option. -/
def startsPlain : List (String × Word) → Bool
  | (_, .plain) :: _ => true
  | _ => false

/-- Goes through the words of a command line; `others` are the texts that belong to no option, the latest
first. -/
def consume : (a : Arguments) → (others : List String) → List (String × Word) →
    Except ReadingEnd (Arguments × List String)
  | a, others, [] => .ok (a, others)
  | a, others, (s, .option o value) :: rest =>
    match o.effect, value with
    | .help, none => .error .help
    | .help, some v => .error (helpWith s o v (startsPlain rest))
    | .flag set, none => consume (set a) others rest
    | .flag _, some v => .error (.usage (.valueIgnored o.shownName v))
    | .value read set, some v => do
      let a ← takeOwn o read set a v
      consume a others rest
    | .value read set, none =>
      match rest with
      | (v, .plain) :: rest => do
        let a ← takeValue o read set a v
        consume a others rest
      | _ => .error (.usage (.valueMissing o.shownName))
  | a, others, (s, _) :: rest => consume a (s :: others) rest

/-- The names of all options on one line. -/
def usage : String :=
  "usage: " ++ String.intercalate " " (CommandOption.all.map fun o =>
    match o.effect with
    | .value .. => "[" ++ o.shownName ++ " VALUE]"
    | _ => "[" ++ o.shownName ++ "]")

/-- Reads a command line. -/
def ofList (args : List String) : Except ReadingEnd Arguments := do
  let ws ← (words args).mapError .usage
  let (a, others) ← consume {} [] ws
  if others ≠ [] then throw (.usage (.unrecognized others.reverse))
  if !(a.load || a.run) then throw (.usage .nothingToDo)
  return a

end Arguments

end GeoWorkload
