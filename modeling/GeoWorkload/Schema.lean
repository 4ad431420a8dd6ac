import GeoWorkload.Label

/-!
# Document schemas

A schema names the fields of a document that become tokens, in order (`Schema.fieldPaths`), and the
keys under which a store keeps counters, documents and tokens (`counterKey`, `docIdKey`, `bodyKey`,
`fieldKey`).  Every key starts with the collection and the delimiter, and a key of a slot ends with the
delimiter and the decimal of the slot.  The parts of keys are labels: where one is no text, only what is made
of it is broken.
-/

namespace GeoWorkload

/-- A document schema. -/
structure Schema where
  name : Label
  collection : Label := "usertable"
  delimiter : Label := ":::"
  idField : Label := "_id"
  stringFields : List String := ["type"]
  propertiesField : Label := "properties"
  propertyStringFields : List String := []
  propertyIntFields : List String := []
  geometryField : Label := "geometry"
  geometryTypeField : Label := "type"
  geometryCoordinatesField : Label := "coordinates"
  insertCounter : Label := "GEO_insert_document_counter"
  storedCounter : Label := "GEO_storage_docs_count_docs"
  totalCounter : Label := "GEO_total_docs_count"
  docIdFamily : Label := "GEO_doc_id"
  bodyFamily : Label := "GEO_insert_document"
deriving DecidableEq, Repr

namespace Schema

/-- The schema of incident reports. -/
def incidents : Schema where
  name := "incidents"
  propertyStringFields := ["INCIDENT_NUMBER", "LOCATION", "NOTIFICATION", "INCIDENT_DATE",
    "MONIKER_CLASS", "PROP_TYPE", "Waiver"]
  propertyIntFields := ["OBJECTID", "TAG_COUNT", "SQ_FT"]

instance : Inhabited Schema := ⟨incidents⟩

variable (S : Schema)

/-- What every key starts with. -/
def keyStart : Label := S.collection ++ S.delimiter

/-- The fields of the properties: those that hold texts, then those that hold integers. -/
def propertyFields : List String := S.propertyStringFields ++ S.propertyIntFields

/-- The path of a field of the properties. -/
def propertyPath (field : String) : Label := S.propertiesField ++ S.delimiter ++ .text field

/-- The path of a field of the geometry. -/
def geometryPath (field : Label) : Label := S.geometryField ++ S.delimiter ++ field

/-- The path of the type of the geometry. -/
def geometryTypePath : Label := S.geometryPath S.geometryTypeField

/-- The path of the coordinates of the geometry. -/
def coordinatesPath : Label := S.geometryPath S.geometryCoordinatesField

/-- The paths of all fields that become tokens. -/
def fieldPaths : List Label :=
  S.stringFields.map .text ++ [S.idField] ++ S.propertyFields.map S.propertyPath ++
    [S.geometryTypePath, S.coordinatesPath]

/-- The texts in ascending order, each once. -/
def sortedNames (names : List String) : List String :=
  (names.mergeSort fun a b => a ≤ b).eraseDups

/-- The names of all fields that a reader of documents asks for, each once. -/
def projection : List Label :=
  Label.distinct ([S.idField, S.propertiesField, S.geometryField] ++ S.stringFields.map .text ++
    S.propertyFields.map .text ++ [S.geometryTypeField, S.geometryCoordinatesField])

/-- The names of the projection in order; all of them have to be keys. -/
def sortedProjection : Except LabelFault (List Label) :=
  match S.projection.findSome? (·.keyFault?) with
  | some fault => .error fault
  | none => Label.sorted S.projection

/-- The key of a counter. -/
def counterKey (counter : Label) : Label := S.keyStart ++ counter

/-- The key of a slot in a family of keys. -/
def slotKey (family : Label) (slot : Int) : Label :=
  S.keyStart ++ family ++ S.delimiter ++ .text (Numeral.decimal slot)

/-- The key of the id of the document in a slot. -/
def docIdKey (slot : Int) : Label := S.slotKey S.docIdFamily slot

/-- The key of the body of the document in a slot. -/
def bodyKey (slot : Int) : Label := S.slotKey S.bodyFamily slot

/-- The key of the token of a field in a slot. -/
def fieldKey (path : Label) (slot : Int) : Label := S.slotKey path slot

/-- The key of the number of the last insert. -/
def insertKey : Label := S.counterKey S.insertCounter

/-- The key of the number of stored documents. -/
def storedKey : Label := S.counterKey S.storedCounter

/-- The key of the number of all documents. -/
def totalKey : Label := S.counterKey S.totalCounter

/-- The id of the document of an insert. -/
def generatedDocId (sequence : Int) : Label := S.keyStart ++ .text (Numeral.decimal sequence)

end Schema

end GeoWorkload
