import GeoWorkload.Generator.Ingest
import GeoWorkload.Workload.Transaction

/-!
# Loading documents

Loading ingests documents one after another and writes after each as many inserts as bring the records up
to the wanted number (`Load.run`, `insertsPerDocument`).
-/

namespace GeoWorkload

/-- How many inserts follow each document: the records per document, rounded to the nearest integer with
halves up, less the document itself. -/
def insertsPerDocument (records total : Int) : Except NumberError Int :=
  if total ≤ 0 then .ok 0
  else (Binary64.ratio records total.toNat).map fun ratio =>
    max 0 ((ratio + Binary64.half).floor?.getD 0 - 1)

/-- The numbers of documents ingested, and of inserts that were and were not carried out. -/
structure LoadCounts where
  ingested : Nat := 0
  inserted : Nat := 0
  failed : Nat := 0
deriving DecidableEq, Repr

namespace LoadCounts

/-- The counts with those of another load added. -/
def add (a b : LoadCounts) : LoadCounts :=
  ⟨a.ingested + b.ingested, a.inserted + b.inserted, a.failed + b.failed⟩

/-- The counts after one more insert. -/
def count (c : LoadCounts) (status : Status) : LoadCounts :=
  if status.isOk then { c with inserted := c.inserted + 1 } else { c with failed := c.failed + 1 }

/-- The counts as messages give them. -/
def text (c : LoadCounts) : String :=
  "ingested=" ++ toString c.ingested ++ " inserted=" ++ toString c.inserted ++
    " failed=" ++ toString c.failed

end LoadCounts

namespace Load

variable [Powers] {σ : Type} [CounterStore σ]

open Station

/-- Writes an insert; an expected failure is told of. -/
def insert (table : Json.Value) : Action (Station σ) Status := do
  match ← (Transaction.perform table .insert).attempt with
  | .ok status => return status
  | .error f =>
    if f.isExpected then
      Action.log .warning (Operation.insert.name ++ " failed during load: " ++ f.message)
      return .error
    else Action.fail f

/-- Writes a number of inserts. -/
def inserts (table : Json.Value) : (count : Nat) → LoadCounts → Action (Station σ) LoadCounts
  | 0, counts => return counts
  | count + 1, counts => do
    inserts table count (counts.count (← insert table))

/-- Ingests documents, each with its inserts. -/
def documents (table : Json.Value) (perDocument : Nat) :
    List Json.Value → LoadCounts → Action (Station σ) LoadCounts
  | [], counts => return counts
  | doc :: rest, counts => do
    let key ← onSite Generator.randomDocId
    let _ ← onSite (Generator.ingestDocument key doc)
    let counts ← inserts table perDocument { counts with ingested := counts.ingested + 1 }
    documents table perDocument rest counts

/-- Loads documents towards a number of records for a total number of documents. -/
def run (table : Json.Value) (records total : Int) (docs : List Json.Value) :
    Action (Station σ) LoadCounts := do
  let perDocument ← Action.ofNumber (insertsPerDocument records total)
  let counts ← documents table perDocument.toNat docs {}
  Action.log .debug ("Load phase " ++ counts.text)
  return counts

end Load

end GeoWorkload
