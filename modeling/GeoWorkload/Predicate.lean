import GeoWorkload.Json.Value

/-!
# Predicates

What an operation hands to a store of documents (`Predicate`): fields, and at most four nested
predicates in the slots A to D, written as one JSON object (`Predicate.toJson`).
-/

namespace GeoWorkload

namespace Predicate

/-- The fields of a predicate; null stands for an absent value. -/
structure Fields where
  name : Json.Value := .null
  valueObject : Json.Value := .null
  valueArray : Json.Value := .null
  rawValue : Json.Value := .null
  docId : Json.Value := .null
  operation : Json.Value := .null
  relation : Json.Value := .null
  type : Json.Value := .string "string"
deriving DecidableEq, Repr

/-- A place for a nested predicate. -/
inductive Slot where
  | a
  | b
  | c
  | d
deriving DecidableEq, Repr

namespace Slot

/-- All slots, in order. -/
def all : List Slot := [a, b, c, d]

/-- The name of a slot. -/
def name : Slot → String
  | a => "A"
  | b => "B"
  | c => "C"
  | d => "D"

/-- The slot of a name. -/
def ofName? (s : String) : Option Slot := all.find? fun slot => slot.name = s

end Slot

/-- The fields that members give under names of their own, the usual ones where they are absent. -/
def Fields.ofMembers (m : Json.Members) : Fields where
  name := m.get "name"
  valueObject := m.get "value_object"
  valueArray := m.get "value_array"
  rawValue := m.get "raw_value"
  docId := m.get "doc_id"
  operation := m.get "operation"
  relation := m.get "relation"
  type := (m.get? "type").getD (.string "string")

/-- The members that write the fields. -/
def Fields.toMembers (f : Fields) : Json.Members :=
  [("name", f.name), ("valueObject", f.valueObject), ("valueArray", f.valueArray),
    ("rawValue", f.rawValue), ("docId", f.docId), ("operation", f.operation),
    ("relation", f.relation), ("type", f.type)]

end Predicate

/-- A predicate with what is nested in its four slots; `absent` stands for an empty slot. -/
inductive Predicate where
  | absent
  | node (fields : Predicate.Fields) (a b c d : Predicate)
deriving DecidableEq, Repr

namespace Predicate

instance : Inhabited Predicate := ⟨absent⟩

/-- A predicate that nests none. -/
def leaf (fields : Fields) : Predicate := node fields absent absent absent absent

/-- The predicate of a document: its id and its body. -/
def ofDocument (docId body : String) : Predicate :=
  leaf { docId := .string docId, rawValue := .string body }

/-- The predicate of a geometry under the name of its field. -/
def ofGeometry (name geometry : Json.Value) : Predicate :=
  leaf { name := name, valueObject := geometry }

/-- What is nested in a slot. -/
def nested : Predicate → Slot → Predicate
  | absent, _ => absent
  | node _ a _ _ _, .a => a
  | node _ _ b _ _, .b => b
  | node _ _ _ c _, .c => c
  | node _ _ _ _ d, .d => d

/-- The predicate with another nested in a slot; where none stands, none comes to stand. -/
def nest : Predicate → Slot → Predicate → Predicate
  | absent, _, _ => absent
  | node f _ b c d, .a, p => node f p b c d
  | node f a _ c d, .b, p => node f a p c d
  | node f a b _ d, .c, p => node f a b p d
  | node f a b c _, .d, p => node f a b c p

/-- The id of the document, null where the predicate has none. -/
def docId : Predicate → Json.Value
  | absent => .null
  | node f .. => f.docId

/-- The greatest number of predicates on a way down. -/
def depth : Predicate → Nat
  | absent => 0
  | node _ a b c d => max (max a.depth b.depth) (max c.depth d.depth) + 1

/-- The JSON object of a predicate, its slots in order, or null for none. -/
def toJson : Predicate → Json.Value
  | absent => .null
  | node f a b c d =>
    .object (f.toMembers ++
      [("nestedA", a.toJson), ("nestedB", b.toJson), ("nestedC", c.toJson), ("nestedD", d.toJson)])

end Predicate

end GeoWorkload
