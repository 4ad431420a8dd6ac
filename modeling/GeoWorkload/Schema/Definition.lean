import GeoWorkload.Json.Display
import GeoWorkload.Schema

/-!
# Schema definitions

A schema is defined by a JSON object that names it and replaces what it wants of the usual schema
(`Schema.ofMembers`).  Schemas that have been defined are found by name (`Registry`).
-/

namespace GeoWorkload

/-- Why an object defines no schema. -/
inductive SchemaError where
  | nameMissing
  | unknownKey (key : String)
  /-- Fields of the properties are declared to hold both texts and integers. -/
  | overlap (schema : Label) (fields : List String)
  /-- A value of the definition has the wrong kind. -/
  | wrongKind
  /-- A label of the definition cannot be used. -/
  | label (fault : LabelFault)
  /-- The definition names the schema and is no object. -/
  | notObject
  /-- No schema has the name; the known ones are listed. -/
  | unknown (name : Label) (known : List String)
deriving DecidableEq, Repr

namespace SchemaError

/-- The wording of a schema error. -/
def message : SchemaError → String
  | nameMissing => "schema definition requires a name"
  | unknownKey key => "unknown schema key: " ++ key
  | overlap schema fields =>
    "schema " ++ schema.display ++ ": fields declared both string and int: " ++
      (Json.Value.array (fields.map .string)).quoted
  | wrongKind => "a schema definition holds texts and lists"
  | label fault => fault.message
  | notObject => "a schema definition is an object"
  | unknown name known =>
    "unknown schema " ++ name.quoted ++ " (known: " ++ String.intercalate ", " known ++ ")"

/-- Whether the definition is of the right shape, but cannot be used. -/
def isOfContent : SchemaError → Bool
  | wrongKind | notObject | label _ => false
  | _ => true

end SchemaError

namespace Schema

/-- The names that a value lists: the items of an array, the characters of a text or the names of an
object. -/
def namesOf? : Json.Value → Option (List String)
  | .array items => some (items.map (·.display))
  | .string s => some (s.toList.map fun c => String.ofList [c])
  | .object members => some (members.map (·.1))
  | _ => none

/-- A schema under definition: the names of its fields as they are given. -/
structure Draft where
  schema : Schema
  stringFields : Json.Value := .array [.string "type"]
  propertyStringFields : Json.Value := .array []
  propertyIntFields : Json.Value := .array []

/-- The draft with the value of one key taken over, or nothing for an unknown key. -/
def Draft.set? (d : Draft) (key : String) (v : Json.Value) : Option Draft :=
  let S := d.schema
  let l := Label.ofAttribute v
  match key with
  | "name" => some { d with schema := { S with name := l } }
  | "collection" => some { d with schema := { S with collection := l } }
  | "delimiter" => some { d with schema := { S with delimiter := l } }
  | "id_field" => some { d with schema := { S with idField := l } }
  | "string_fields" => some { d with stringFields := v }
  | "properties_field" => some { d with schema := { S with propertiesField := l } }
  | "properties_string_fields" => some { d with propertyStringFields := v }
  | "properties_int_fields" => some { d with propertyIntFields := v }
  | "geometry_field" => some { d with schema := { S with geometryField := l } }
  | "geometry_type_field" => some { d with schema := { S with geometryTypeField := l } }
  | "geometry_coordinates_field" =>
    some { d with schema := { S with geometryCoordinatesField := l } }
  | "insert_counter" => some { d with schema := { S with insertCounter := l } }
  | "stored_count_counter" => some { d with schema := { S with storedCounter := l } }
  | "total_count_counter" => some { d with schema := { S with totalCounter := l } }
  | "doc_id_family" => some { d with schema := { S with docIdFamily := l } }
  | "body_family" => some { d with schema := { S with bodyFamily := l } }
  | _ => none

/-- Takes over the members of a definition, in order. -/
def Draft.setAll : Draft → Json.Members → Except SchemaError Draft
  | d, [] => .ok d
  | d, (key, v) :: rest =>
    match d.set? key v with
    | some d => d.setAll rest
    | none => .error (.unknownKey key)

/-- The schema, unless the path of a field is broken. -/
def checkPaths (S : Schema) : Except SchemaError Schema := do
  let _ ← (S.fieldPaths.mapM Label.unbroken).mapError .label
  return S

/-- The schema of a finished draft.  Fields of both kinds are reported first; two lists of property
fields have to be given alike. -/
def Draft.finish (d : Draft) : Except SchemaError Schema :=
  match namesOf? d.propertyStringFields, namesOf? d.propertyIntFields with
  | some strings, some ints =>
    let both := sortedNames (strings.filter fun name => ints.contains name)
    if both ≠ [] then .error (.overlap d.schema.name both)
    else
      match namesOf? d.stringFields, d.propertyStringFields, d.propertyIntFields with
      | some fields, .array _, .array _ | some fields, .string _, .string _ =>
        checkPaths { d.schema with
          stringFields := fields, propertyStringFields := strings, propertyIntFields := ints }
      | _, _, _ => .error .wrongKind
  | _, _ => .error .wrongKind

/-- The schema that an object defines. -/
def ofMembers (members : Json.Members) : Except SchemaError Schema :=
  match members.get? "name" with
  | none => .error .nameMissing
  | some _ =>
    let draft : Draft := { schema := { name := "" } }
    (draft.setAll members).bind Draft.finish

/-- Whether a text stands somewhere in another. -/
def hasInfix (part : List Char) : List Char → Bool
  | [] => part.isEmpty
  | c :: cs => part.isPrefixOf (c :: cs) || hasInfix part cs

/-- The schema that a value defines. -/
def ofValue : Json.Value → Except SchemaError Schema
  | .object members => ofMembers members
  | .array items => .error (if items.contains (.string "name") then .notObject else .nameMissing)
  | .string s => .error (if hasInfix "name".toList s.toList then .notObject else .nameMissing)
  | _ => .error .wrongKind

end Schema

/-- The schemas that have been defined, the newest first. -/
abbrev Registry := List Schema

namespace Registry

/-- The registry that holds the schema of incident reports alone. -/
def initial : Registry := [.incidents]

/-- The registry with a schema in place of the one of its name, which has to be a key. -/
def register (r : Registry) (S : Schema) : Except SchemaError Registry :=
  match S.name.keyFault? with
  | some fault => .error (.label fault)
  | none => .ok (S :: r.filter fun T => !T.name.same S.name)

/-- The names of all schemas, which have to be texts. -/
def known (r : Registry) : Except SchemaError (List String) := do
  let names ← ((Label.sorted (r.map (·.name))).bind fun l => l.mapM Label.toText).mapError .label
  return names

/-- The schema of a name; no name or an empty one means that of incident reports. -/
def get (r : Registry) (name : Option Label) : Except SchemaError Schema :=
  match name.filter (·.isTruthy) with
  | none => .ok .incidents
  | some name =>
    match name.keyFault?, r.find? fun S => S.name.same name with
    | some fault, _ => .error (.label fault)
    | none, some S => .ok S
    | none, none => do throw (.unknown name (← r.known))

end Registry

end GeoWorkload
