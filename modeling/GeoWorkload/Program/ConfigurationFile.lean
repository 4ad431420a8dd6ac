import GeoWorkload.Files
import GeoWorkload.Json.Reader
import GeoWorkload.Program.Default

/-!
# Configuration files

The members of the object that a configuration file holds (`ConfigurationFile.read`), or of the default
configuration where no file is named.
-/

namespace GeoWorkload

/-- Why a configuration file cannot be used; `path` is where it stands. -/
inductive ConfigurationFileFault where
  | absent (path : String)
  | notJson (path : String) (reason : Json.Reason) (line column offset : Nat)
  | notObject (path : String)
  /-- A number of the file has too many digits. -/
  | tooManyDigits (digits : Nat)
  /-- The file is there and cannot be read. -/
  | unreadable (fault : FileFault)
deriving DecidableEq, Repr

namespace ConfigurationFileFault

/-- The wording of a fault. -/
def message : ConfigurationFileFault → String
  | absent path => "Config file not found: " ++ path
  | notJson path reason line column offset =>
    "Invalid JSON in " ++ path ++ ": " ++ (Json.ReadError.malformed reason line column offset).message
  | notObject path => "Config " ++ path ++ " must hold a JSON object."
  | tooManyDigits digits => Numeral.tooManyDigitsMessage digits
  | unreadable fault => fault.message

/-- Whether the program refuses the file for the fault; other faults it does not handle. -/
def isRefused : ConfigurationFileFault → Bool
  | absent _ | notJson .. | notObject _ => true
  | _ => false

end ConfigurationFileFault

/-- The members of a configuration and where it stands. -/
structure ConfigurationFile where
  path : String
  members : Json.Members
deriving DecidableEq, Repr

namespace ConfigurationFile

/-- The default configuration. -/
def default : ConfigurationFile := ⟨DefaultConfiguration.path, DefaultConfiguration.members⟩

/-- The configuration that a text holds. -/
def ofText (path text : String) : Except ConfigurationFileFault ConfigurationFile :=
  match Json.read text with
  | .ok (.object members) => .ok ⟨path, members⟩
  | .ok _ => .error (.notObject path)
  | .error (.malformed reason line column offset) =>
    .error (.notJson path reason line column offset)
  | .error (.integerTooLong digits) => .error (.tooManyDigits digits)

/-- The configuration of a file, if one is named. -/
def read (files : Files) (homes : Homes) (name : String) :
    Except ConfigurationFileFault ConfigurationFile := do
  if name = "" then return default
  let p ← (Files.pathOf homes name).mapError .unreadable
  match files.find p with
  | .error (.nameTooLong path) => throw (.unreadable (.nameTooLong path))
  | .error _ => throw (.absent p.text)
  | .ok _ => ofText p.text (← (files.readText p).mapError .unreadable)

end ConfigurationFile

end GeoWorkload
