import GeoWorkload.Generator.Compile
import GeoWorkload.Mix
import GeoWorkload.Trace

/-!
# Transactions

A transaction carries out one operation: it compiles the request and hands it to the store of documents
(`perform`).  A failure of the counter store or a missing document is told of and gives a status, any
other failure goes on (`settle`).
-/

namespace GeoWorkload

/-- A generator with the counter store and the store of documents that it works on. -/
structure Station (σ : Type) where
  generator : Generator
  counters : σ
  documents : DocumentStore

namespace Station

variable {σ α : Type}

/-- An action of the generator at the counter store. -/
def onSite (x : Action (Generator.Site σ) α) : Action (Station σ) α :=
  Action.within (fun s => ⟨s.generator, s.counters⟩)
    (fun site s => { s with generator := site.generator, counters := site.counters }) x

/-- An action on the store of documents. -/
def onDocuments (x : Action DocumentStore α) : Action (Station σ) α :=
  Action.within (·.documents) (fun documents s => { s with documents }) x

end Station

namespace Transaction

variable [Powers] {σ : Type} [CounterStore σ]

open Station

/-- Sends a compiled predicate to the store of documents. -/
def send (table : Json.Value) (op : Operation) (compile : Action (Generator.Site σ) Predicate) :
    Action (Station σ) Status := do
  let p ← onSite compile
  onDocuments (DocumentStore.request (.predicate op table p))

/-- Compiles the request of an operation and sends it. -/
def perform (table : Json.Value) : Operation → Action (Station σ) Status
  | .insert => send table .insert Generator.compileInsert
  | .update => send table .update Generator.compileUpdate
  | .near => send table .near Generator.compileRead
  | .box => send table .box Generator.compileRead
  | .intersect => send table .intersect Generator.compileRead
  | .scan => do
    let startKey ← onSite Generator.distributedDocId
    let limit ← onSite Generator.limit
    let offset ← onSite Generator.offset
    onDocuments (DocumentStore.request (.scan table startKey limit offset))

/-- Carries out the operation of a name. -/
def dispatch (table : Json.Value) (name : String) : Action (Station σ) Status :=
  match Operation.ofName? name with
  | some op => perform table op
  | none => Action.fail (.unknownOperation name)

/-- The status of an operation that may have failed. -/
def settle (name : String) (r : Except Failure Status) : Action (Station σ) Status := do
  match r with
  | .ok status => return status
  | .error f@(.slotNotFound ..) =>
    Action.log .warning (name ++ " found no stored document: " ++ f.message)
    return .notFound
  | .error f =>
    if f.isExpected then
      Action.log .warning (name ++ " failed: " ++ f.message)
      return .error
    else Action.fail f

/-- Carries out a transaction of the operation of a name. -/
def run (table : Json.Value) (name : String) : Action (Station σ) Status := do
  settle name (← (dispatch table name).attempt)

/-- Draws the name of an operation from a mix and carries out a transaction of it. -/
def next (table : Json.Value) (mix : Mix String) : Action (Station σ) (String × Status) := do
  let name ← onSite (Generator.Site.onSource mix.draw)
  return (name, ← run table name)

end Transaction

end GeoWorkload
