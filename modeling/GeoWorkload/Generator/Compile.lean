import GeoWorkload.Generator
import GeoWorkload.Geometry
import GeoWorkload.Json.Reader
import GeoWorkload.Predicate

/-!
# Compiling predicates

The predicates of the operations, made from stored documents: of an insert (`compileInsert`), of an update
(`compileUpdate`) and of a read (`compileRead`).  Each carries a document id that no other carries, and
each shape of a read costs one id more.
-/

namespace GeoWorkload.Generator

variable [Powers] {σ : Type} [CounterStore σ]

open Site

/-- The body of the document in a slot. -/
def loadBody (slot : Int) : Action (Site σ) String := do
  let _ ← Action.ofNumber (Numeral.writeInteger slot)
  let key := (← ownSchema).bodyKey slot
  match ← onCounters (CounterStore.get key) with
  | some body => return body
  | none => Action.fail (.slotNotFound slot key)

/-- The next document id. -/
def nextDocId : Action (Site σ) String := do
  let S ← ownSchema
  let sequence ← onCounters (CounterStore.increment S.insertKey 1)
  Action.ofLabel (S.generatedDocId sequence).toText

/-- The predicate of an insert: a stored document under the next id. -/
def compileInsert : Action (Site σ) Predicate := do
  let slot ← onSampler (Sampler.uniform (← storedCount))
  let body ← loadBody slot
  return .ofDocument (← nextDocId) body

/-- Draws a shape. -/
def drawShape (synth : RandomSource → Shape × RandomSource) : Action (Site σ) Shape :=
  onSource (Action.step fun s =>
    let (shape, s) := synth s
    (.ok shape, s))

/-- The predicate of a drawn shape. -/
def shapePredicate (synth : RandomSource → Shape × RandomSource) : Action (Site σ) Predicate := do
  let name := (← ownSchema).geometryField
  return .ofGeometry name.toJson (← drawShape synth).toJson

/-- The predicate of an update: that of an insert with a random point. -/
def compileUpdate : Action (Site σ) Predicate := do
  let root ← compileInsert
  return root.nest .a (← shapePredicate Shape.synthPoint)

/-- The geometry of a stored body, or null and a warning where the body holds none. -/
def storedGeometry (body : String) (slot : Int) : Action (Site σ) Json.Value := do
  let name := (← ownSchema).geometryField
  let start := "Stored document in slot " ++ Numeral.decimal slot
  match Json.read body with
  | .error e =>
    Action.log .warning (start ++ " is not valid JSON: " ++ e.message)
    return .null
  | .ok (.object doc) =>
    match name.memberOf doc with
    | .object geometry => return .object geometry
    | _ =>
      Action.log .warning (start ++ " has no " ++ name.display ++ " object")
      return .null
  | .ok _ =>
    Action.log .warning (start ++ " has no " ++ name.display ++ " object")
    return .null

/-- The predicate of a drawn shape, after an insert that is compiled and thrown away. -/
def spacedShape (synth : RandomSource → Shape × RandomSource) : Action (Site σ) Predicate := do
  let _ ← compileInsert
  shapePredicate synth

/-- The predicate of a read: a stored document with its own geometry, a random point, random lines and,
if wanted, a random polygon. -/
def compileReadWith (withPolygon : Bool) : Action (Site σ) Predicate := do
  let S ← ownSchema
  let slot ← distributedIndex
  let body ← loadBody slot
  let root := Predicate.ofDocument (← nextDocId) body
  let root := root.nest .a (.ofGeometry S.geometryField.toJson (← storedGeometry body slot))
  let root := root.nest .b (← spacedShape Shape.synthPoint)
  let root := root.nest .c (← spacedShape Shape.synthLines)
  if withPolygon then
    return root.nest .d (← spacedShape Shape.synthPolygon)
  else
    return root

/-- The predicate of a read, with a polygon if the settings want one. -/
def compileRead : Action (Site σ) Predicate := do
  compileReadWith (← Action.look (·.generator.settings.readsPolygon))

end GeoWorkload.Generator
