import GeoWorkload.Json.Display
import GeoWorkload.Numeral.Real
import GeoWorkload.Settings

/-!
# Properties

Settings are read from named properties, each a text or another JSON value that is taken as the text
that shows it (`Settings.ofProperties`).  A property that is absent, null or empty has its default; the
first that cannot be read is reported (`PropertyError`).
-/

namespace GeoWorkload

/-- Why a property cannot be read. -/
inductive PropertyError where
  | notInteger (name : String) (value : Json.Value)
  | notNumber (name : String) (value : Json.Value)
  | negative (name : String) (weight : Binary64)
  | notBoolean (name : String) (value : Json.Value)
deriving DecidableEq, Repr

namespace PropertyError

/-- The property at fault. -/
def property : PropertyError → String
  | notInteger name _ | notNumber name _ | negative name _ | notBoolean name _ => name

/-- The wording of a property error. -/
def message : PropertyError → String
  | notInteger name value =>
    "property " ++ name ++ " must be an integer (got " ++ value.quoted ++ ")"
  | notNumber name value => "property " ++ name ++ " must be a number (got " ++ value.quoted ++ ")"
  | negative name weight =>
    "property " ++ name ++ " must not be negative (got " ++ weight.text ++ ")"
  | notBoolean name value =>
    "property " ++ name ++ " must be a boolean (got " ++ value.quoted ++ ")"

end PropertyError

namespace Property

/-- The value of a property, unless it is absent, null or empty. -/
def given? (props : Json.Members) (name : String) : Option Json.Value :=
  match props.get name with
  | .null => none
  | .string "" => none
  | v => some v

/-- The text of a property value without blanks at its ends. -/
def text (v : Json.Value) : String := Text.strip v.display

/-- A property that holds an integer. -/
def integer (props : Json.Members) (name : String) (default : Int) : Except PropertyError Int :=
  match given? props name with
  | none => .ok default
  | some v => (Numeral.readInteger (text v)).mapError fun _ => .notInteger name v

/-- A property that holds a number. -/
def number (props : Json.Members) (name : String) (default : Binary64) :
    Except PropertyError Binary64 :=
  match given? props name with
  | none => .ok default
  | some v => (Numeral.readReal (text v)).mapError fun _ => .notNumber name v

/-- The truth value of a word, in any case. -/
def truth? (word : String) : Option Bool :=
  let word := Text.lower word
  if ["1", "true", "yes", "on"].contains word then some true
  else if ["0", "false", "no", "off"].contains word then some false
  else none

/-- A property that holds a truth value. -/
def boolean (props : Json.Members) (name : String) (default : Bool) : Except PropertyError Bool :=
  match given? props name with
  | none => .ok default
  | some (.bool b) => .ok b
  | some v =>
    match truth? (text v) with
    | some b => .ok b
    | none => .error (.notBoolean name v)

/-- A property that holds a text: any value that counts as true. -/
def display? (props : Json.Members) (name : String) : Option String :=
  let v := props.get name
  if v.isTruthy then some v.display else none

/-- The bounds of limits and offsets. -/
def window (props : Json.Members) : Except PropertyError Window := do
  let limit ← integer props "geo_querylimit_min" 10
  let limit' ← integer props "geo_querylimit_max" 100
  let offset ← integer props "geo_offset_min" 10
  let offset' ← integer props "geo_offset_max" 100
  return .ofBounds limit limit' offset offset'

/-- The proportion of an operation, which must not be negative. -/
def proportion (props : Json.Members) (op : Operation) : Except PropertyError Binary64 := do
  let weight ← number props op.property 0
  if weight.isNegative then throw (.negative op.property weight)
  return weight

/-- The given operations that have a positive proportion. -/
def proportions (props : Json.Members) :
    List Operation → Except PropertyError (List (Operation × Binary64))
  | [] => return []
  | op :: rest => do
    let weight ← proportion props op
    let others ← proportions props rest
    return if weight.isPositive then (op, weight) :: others else others

/-- The settings that numbers decide, apart from the seed. -/
def counts (props : Json.Members) : Except PropertyError Settings := do
  let window ← window props
  let proportions ← proportions props Operation.all
  let totalDocuments ← integer props "totalrecordcount" 13348
  let records ← integer props "recordcount" 1000000
  let insertStart ← integer props "insertstart" 0
  return { window, proportions, totalDocuments, records, insertStart }

/-- The seed, if one is given. -/
def seed (props : Json.Members) : Except PropertyError (Option Int) :=
  match given? props "geo_seed" with
  | none => return none
  | some _ => return some (← integer props "geo_seed" 0)

end Property

namespace Settings

/-- The settings that properties give, and a warning where the distribution has no known name. -/
def ofProperties (props : Json.Members) : Except PropertyError Settings × List LogRecord :=
  match Property.counts props with
  | .error e => (.error e, [])
  | .ok settings =>
    let (distribution, warnings) :=
      Distribution.read (Property.display? props "geo_request_distribution")
    let settings : Except PropertyError Settings := do
      let readsPolygon ← Property.boolean props "geo_read_polygon" true
      let seed ← Property.seed props
      return { settings with
        distribution, readsPolygon, seed, schemaName := Property.display? props "geo_schema" }
    (settings, warnings)

end Settings

/-- The text is no assignment of a value to a key. -/
structure AssignmentFault where
  text : String
deriving DecidableEq, Repr

/-- What is said of a text that is no assignment. -/
def AssignmentFault.message (fault : AssignmentFault) : String :=
  "expected key=value, got " ++ Text.quoted fault.text

/-- The key and the value of an assignment: what stands before and after the first equals sign, without
blanks at the ends. -/
def readAssignment (text : String) : Except AssignmentFault (String × String) :=
  let chars := text.toList
  let key := Text.stripChars (chars.takeWhile (· ≠ '='))
  match chars.dropWhile (· ≠ '=') with
  | _ :: value =>
    if key.isEmpty then .error ⟨text⟩
    else .ok (String.ofList key, String.ofList (Text.stripChars value))
  | [] => .error ⟨text⟩

end GeoWorkload
