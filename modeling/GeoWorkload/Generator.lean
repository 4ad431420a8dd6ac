import GeoWorkload.Counters.Store
import GeoWorkload.Sampling.Sampler
import GeoWorkload.Settings

/-!
# Generators

A generator makes the requests of one worker (`Generator`).  It works at a counter store that it may
share with others (`Generator.Site`) and reads the two document counts there once: a count that is not
zero is kept and never read again (`totalCount`, `storedCount`).
-/

namespace GeoWorkload

/-- A generator: its settings and schema, the sampler that holds its random source, whether every field has
a value in all slots it knows of, and the counts it has read, zero for none. -/
structure Generator where
  settings : Settings
  schema : Schema
  sampler : Sampler
  allInitialized : Bool := false
  totalRead : Int := 0
  storedRead : Int := 0

namespace Generator

/-- A fresh generator that draws from a source. -/
def make (settings : Settings) (schema : Schema) (source : RandomSource) : Generator where
  settings := settings
  schema := schema
  sampler := .make settings.distribution settings.window defaultTheta source

/-- A generator at a counter store. -/
structure Site (σ : Type) where
  generator : Generator
  counters : σ

namespace Site

variable {σ α : Type}

/-- An action on the counter store. -/
def onCounters (x : Action σ α) : Action (Site σ) α :=
  Action.within (·.counters) (fun counters site => { site with counters }) x

/-- An action on the generator alone. -/
def onGenerator (x : Action Generator α) : Action (Site σ) α :=
  Action.within (·.generator) (fun generator site => { site with generator }) x

/-- An action on the sampler. -/
def onSampler (x : Action Sampler α) : Action (Site σ) α :=
  onGenerator (Action.within (·.sampler) (fun sampler g => { g with sampler }) x)

/-- A draw from the source of the generator. -/
def onSource (x : Action RandomSource α) : Action (Site σ) α :=
  onSampler (Action.within (·.source) (fun source s => { s with source }) x)

/-- The schema of the generator. -/
def ownSchema : Action (Site σ) Schema := Action.look (·.generator.schema)

end Site

variable [Powers] {σ : Type} [CounterStore σ]

open Site

/-- The number of all documents. -/
def totalCount : Action (Site σ) Int := do
  let g ← Action.look (·.generator)
  if g.totalRead ≠ 0 then return g.totalRead
  else
    let count ← onCounters (CounterStore.readCounter g.schema.totalKey)
    onGenerator (Action.change fun g => { g with totalRead := count })
    return count

/-- The number of stored documents. -/
def storedCount : Action (Site σ) Int := do
  let g ← Action.look (·.generator)
  if g.storedRead ≠ 0 then return g.storedRead
  else
    let count ← onCounters (CounterStore.readCounter g.schema.storedKey)
    onGenerator (Action.change fun g => { g with storedRead := count })
    return count

/-- An index below the number of all documents, every one as likely as any other. -/
def randomIndex : Action (Site σ) Int := do
  onSampler (Sampler.uniform (← totalCount))

/-- An index in the distribution of the settings. -/
def distributedIndex : Action (Site σ) Int := do
  let total ← totalCount
  let stored ← storedCount
  onSampler (Sampler.sample total stored)

/-- A document id: a random index. -/
def randomDocId : Action (Site σ) String := do
  Action.ofNumber (Numeral.writeInteger (← randomIndex))

/-- A document id: an index in the distribution of the settings. -/
def distributedDocId : Action (Site σ) String := do
  Action.ofNumber (Numeral.writeInteger (← distributedIndex))

/-- A limit of a windowed read. -/
def limit : Action (Site σ) Int := do
  let window ← Action.look (·.generator.settings.window)
  onSampler (Sampler.draw window.drawLimit)

/-- An offset of a windowed read. -/
def offset : Action (Site σ) Int := do
  let window ← Action.look (·.generator.settings.window)
  onSampler (Sampler.draw window.drawOffset)

end Generator

end GeoWorkload
