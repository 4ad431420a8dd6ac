import GeoWorkload.Failure
import GeoWorkload.Json.Printer
import GeoWorkload.Json.Reader
import GeoWorkload.Label.Map
import GeoWorkload.Log
import GeoWorkload.Schema
import GeoWorkload.Text.Blank

/-!
# Tokens of documents

A document is split into one token for each field path of its schema (`tokenize`): a text, or nothing
where the field is absent, null or of the wrong kind.  The plain fields are filled first and then those
of the id, the properties and the geometry; the first field of the wrong kind ends its group, the tokens
filled before it stay, and a warning tells of it.  A body is the text of a document whose strings hold no half of a
pair of UTF-16 units (`Json.ofUnit`).
-/

namespace GeoWorkload

/-- The tokens of a document under their field paths, in order. -/
abbrev Tokens := LabelMap (Option String)

namespace Tokens

/-- No token under any of the paths, each path once. -/
def blank (paths : List Label) : Tokens := (Label.distinct paths).map fun path => (path, none)

/-- The token under a path, if it is there and not null. -/
def get (tokens : Tokens) (path : Label) : Option String := (LabelMap.get? tokens path).join

/-- The JSON object of tokens; of paths that are written alike the last counts. -/
def toJson (tokens : Tokens) : Except LabelFault Json.Value := do
  let members ← tokens.foldlM
    (fun (m : Json.Members) (path, token) => do
      return m.set (← path.memberName) ((token.map .string).getD .null)) []
  return .object members

end Tokens

/-- Why the value of a field gives no token. -/
inductive FieldFault where
  | notObject (field kind : String)
  | notText (field : String) (value : Json.Value)
  | notFinite (field : String) (value : Json.Value)
  | notInteger (field : String) (value : Json.Value)
  | notId (field : String) (value : Json.Value)
  | notArray (value : Json.Value)
deriving DecidableEq, Repr

/-- The wording of a field fault. -/
def FieldFault.message : FieldFault → String
  | notObject field kind => field ++ " is not an object: " ++ kind
  | notText field value => field ++ " is not a string: " ++ value.quoted
  | notFinite field value => field ++ " is not a finite number: " ++ value.quoted
  | notInteger field value => field ++ " is not an integer: " ++ value.quoted
  | notId field value => "unsupported " ++ field ++ " value: " ++ value.quoted
  | notArray value => "coordinates is not an array: " ++ value.quoted

/-- What ends a group of fields. -/
inductive Stop where
  /-- A field of the wrong kind. -/
  | fault (fault : FieldFault)
  /-- A number beyond the range of binary64, or a name that is no key. -/
  | failure (failure : Failure)
deriving DecidableEq, Repr

namespace FieldValue

/-- The token of a field that holds a text. -/
def text (field : String) : Json.Value → Except Stop String
  | .string s => .ok s
  | v => .error (.fault (.notText field v))

/-- The decimal of the whole part of a finite number. -/
def whole (field : String) (x : Binary64) : Except Stop String :=
  match x.truncate? with
  | some z => .ok (Numeral.decimal z)
  | none => .error (.fault (.notFinite field (.float x)))

/-- The token of a field that holds an integer: as an integer, a number or a text. -/
def integer (field : String) : Json.Value → Except Stop String
  | .int z => .ok (Numeral.decimal z)
  | .float x => whole field x
  | .string s =>
    match Numeral.readInteger (Text.strip s) with
    | .ok z => .ok (Numeral.decimal z)
    | .error _ => .error (.fault (.notInteger field (.string s)))
  | v => .error (.fault (.notInteger field v))

/-- The token of the id: a text, the whole part of a number, or the JSON text of an object. -/
def id (field : String) : Json.Value → Except Stop String
  | .object members => .ok (Json.Value.object members).compactText
  | .int z => .ok (Numeral.decimal z)
  | .float x => whole field x
  | .string s => .ok s
  | v => .error (.fault (.notId field v))

/-- Whether a value is a finite number; an integer beyond the range of binary64 is an error. -/
def isFiniteNumber : Json.Value → Except Stop Bool
  | .int z => ((Binary64.ofInteger z).map fun _ => true).mapError fun e => .failure (.number e)
  | .float x => .ok x.isFinite
  | _ => .ok false

/-- The token of the coordinates: the first two numbers of an array that starts with two finite
ones. -/
def coordinates : Json.Value → Except Stop (Option String)
  | .null => .ok none
  | .array (x :: y :: _) => do
    if ← isFiniteNumber x then
      if ← isFiniteNumber y then
        return some (x.display ++ "," ++ y.display)
    return none
  | .array _ => .ok none
  | v => .error (.fault (.notArray v))

/-- The members of a field that holds an object. -/
def object (field : String) : Json.Value → Except Stop Json.Members
  | .object members => .ok members
  | v => .error (.fault (.notObject field v.kind))

end FieldValue

/-- A step that fills tokens and may be stopped, the tokens filled before it kept. -/
abbrev Filling := ExceptT Stop (StateM Tokens)

namespace Filling

/-- Puts a token under a path. -/
def put (path : Label) (value : Option String) : Filling Unit :=
  modify (·.set path value)

/-- The value under a name in an object, null where it is absent. -/
def lookup (doc : Json.Members) (name : Label) : Filling Json.Value :=
  match name.keyFault? with
  | some fault => throw (.failure (.label fault))
  | none => return name.memberOf doc

/-- Fills one field of an object from its value, unless it is absent or null. -/
def field (doc : Json.Members) (name path : Label)
    (convert : String → Json.Value → Except Stop String) : Filling Unit := do
  match ← lookup doc name with
  | .null => return
  | v =>
    match convert name.display v with
    | .ok token => put path (some token)
    | .error stop => throw stop

/-- Fills the named fields of an object in turn. -/
def fields (doc : Json.Members) (pathOf : String → Label)
    (convert : String → Json.Value → Except Stop String) : List String → Filling Unit
  | [] => pure ()
  | name :: rest => do
    field doc (.text name) (pathOf name) convert
    fields doc pathOf convert rest

/-- Fills the plain fields. -/
def plainFields (S : Schema) (doc : Json.Members) : Filling Unit :=
  fields doc .text FieldValue.text S.stringFields

/-- The members of an object in a field, or nothing where the field is absent or null. -/
def objectIn (doc : Json.Members) (name : Label) : Filling (Option Json.Members) := do
  match ← lookup doc name with
  | .null => return none
  | v =>
    match FieldValue.object name.display v with
    | .ok members => return some members
    | .error stop => throw stop

/-- Fills the fields of the properties: those that hold texts, then those that hold integers. -/
def properties (S : Schema) (doc : Json.Members) : Filling Unit := do
  match ← objectIn doc S.propertiesField with
  | none => return
  | some props =>
    fields props S.propertyPath FieldValue.text S.propertyStringFields
    fields props S.propertyPath FieldValue.integer S.propertyIntFields

/-- Fills the type and the coordinates of the geometry. -/
def geometry (S : Schema) (doc : Json.Members) : Filling Unit := do
  match ← objectIn doc S.geometryField with
  | none => return
  | some geometry =>
    field geometry S.geometryTypeField S.geometryTypePath FieldValue.text
    match FieldValue.coordinates (← lookup geometry S.geometryCoordinatesField) with
    | .ok token => put S.coordinatesPath token
    | .error stop => throw stop

/-- Fills the id, the fields of the properties and those of the geometry. -/
def objects (S : Schema) (doc : Json.Members) : Filling Unit := do
  field doc S.idField S.idField FieldValue.id
  properties S doc
  geometry S doc

end Filling

/-- What tokenizing tells of. -/
inductive TokenWarning where
  /-- The body is no JSON text. -/
  | notJson (cause : String)
  /-- The body is not an object. -/
  | notObject (kind : String)
  /-- A plain field is of the wrong kind. -/
  | plainField (fault : FieldFault)
  /-- A field of an object is of the wrong kind. -/
  | objectField (fault : FieldFault)
deriving DecidableEq, Repr

/-- The record of a warning. -/
def TokenWarning.record (w : TokenWarning) : LogRecord :=
  ⟨.warning, "Document parsing error - " ++
    match w with
    | notJson cause => "invalid JSON: " ++ cause
    | notObject kind => "body is " ++ kind ++ ", not an object"
    | plainField fault => "plain fields: " ++ fault.message
    | objectField fault => "objects: " ++ fault.message⟩

/-- The outcome of tokenizing: the tokens, or why there are none, and the warnings. -/
structure Tokenized where
  result : Except Failure Tokens
  warnings : List TokenWarning
deriving Repr

/-- The tokens after a group of fields, its fault as a warning, or the failure that stops all. -/
def fillGroup (group : Filling Unit) (warn : FieldFault → TokenWarning) (tokens : Tokens) :
    Except Failure (Tokens × List TokenWarning) :=
  match group.run.run tokens with
  | (.ok (), tokens) => .ok (tokens, [])
  | (.error (.fault fault), tokens) => .ok (tokens, [warn fault])
  | (.error (.failure f), _) => .error f

/-- The tokens of a document that is an object. -/
def tokenizeObject (S : Schema) (doc : Json.Members) : Tokenized :=
  match fillGroup (Filling.plainFields S doc) .plainField (.blank S.fieldPaths) with
  | .error f => ⟨.error f, []⟩
  | .ok (tokens, warnings) =>
    match fillGroup (Filling.objects S doc) .objectField tokens with
    | .error f => ⟨.error f, warnings⟩
    | .ok (tokens, more) => ⟨.ok tokens, warnings ++ more⟩

/-- The tokens of a body that is a text. -/
def tokenizeText (S : Schema) (body : String) : Tokenized :=
  match Json.read body with
  | .error e => ⟨.ok (.blank S.fieldPaths), [.notJson e.message]⟩
  | .ok (.object doc) => tokenizeObject S doc
  | .ok v => ⟨.ok (.blank S.fieldPaths), [.notObject v.kind]⟩

/-- The tokens of a body that should be a text.  The paths of the schema have to be keys. -/
def tokenizeValue (S : Schema) (body : Json.Value) : Tokenized :=
  match S.fieldPaths.findSome? (·.keyFault?), body with
  | some fault, _ => ⟨.error (.label fault), []⟩
  | none, .string body => tokenizeText S body
  | none, v => ⟨.ok (.blank S.fieldPaths),
    [.notJson ("the JSON object must be str, bytes or bytearray, not " ++ v.kind)]⟩

/-- The tokens of the body of a document. -/
def tokenize (S : Schema) (body : String) : Tokenized := tokenizeValue S (.string body)

end GeoWorkload
