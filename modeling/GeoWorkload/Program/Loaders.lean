import GeoWorkload.Workload.Load
import GeoWorkload.Workload.Worker

/-!
# Loaders

Several loaders share the documents of a corpus: each takes every so many-th of them, starting at its own
number (`slice`), and loads them with a generator of its own (`Loader.run`).  A failure that loading does
not count ends the loader.
-/

namespace GeoWorkload

/-- The items at every `n`-th place, the first of them included. -/
def everyNth {α : Type} (n : Nat) : List α → List α
  | [] => []
  | a :: rest => a :: everyNth n (rest.drop (n - 1))
termination_by l => l.length
decreasing_by simp only [List.length_drop, List.length_cons]; omega

/-- The items for one of `count` takers; the takers are numbered from one. -/
def slice {α : Type} (items : List α) (taker count : Nat) : List α :=
  everyNth count (items.drop (taker - 1))

/-- What loaders share: the counter store, the store of documents, what they have loaded and the failures
that ended some of them. -/
structure LoaderCrew (σ : Type) where
  counters : σ
  documents : DocumentStore
  totals : LoadCounts := {}
  errors : List (Nat × Failure) := []

namespace Loader

variable [Powers] {σ : Type} [CounterStore σ]

/-- Loads documents with a generator. -/
def work (settings : Settings) (table : Json.Value) (generator : Generator) (docs : List Json.Value) :
    Action (LoaderCrew σ) LoadCounts :=
  Action.within (fun crew => (⟨generator, crew.counters, crew.documents⟩ : Station σ))
    (fun station crew => { crew with counters := station.counters, documents := station.documents })
    (Load.run table settings.records settings.totalDocuments docs)

/-- Runs a loader and closes its use of the counter store. -/
def run (settings : Settings) (schema : Schema) (table : Json.Value) (moment : Int) (loader : Nat)
    (docs : List Json.Value) : Action (LoaderCrew σ) Unit := do
  let name := "Loader " ++ Numeral.padded 2 loader
  match ← (work settings table (Worker.generator settings schema moment loader) docs).attempt with
  | .ok counts =>
    Action.change fun crew => { crew with totals := crew.totals.add counts }
    Action.log .info (name ++ " ingested " ++ toString counts.ingested ++ " document(s), " ++
      toString counts.inserted ++ " insert(s), " ++ toString counts.failed ++ " failed")
  | .error f =>
    Action.change fun crew => { crew with errors := crew.errors ++ [(loader, f)] }
    Action.log .error (name ++ " aborted")
  Action.within (·.counters) (fun counters crew => { crew with counters }) CounterStore.close

/-- Runs the loaders of the given numbers in turn, each on its slice of the documents. -/
def runAll (settings : Settings) (schema : Schema) (table : Json.Value) (moment : Int) (count : Nat)
    (docs : List Json.Value) : List Nat → Action (LoaderCrew σ) Unit
  | [] => return
  | loader :: rest => do
    run settings schema table moment loader (slice docs loader count)
    runAll settings schema table moment count docs rest

end Loader

end GeoWorkload
