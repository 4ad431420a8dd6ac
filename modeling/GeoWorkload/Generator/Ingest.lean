import GeoWorkload.Generator
import GeoWorkload.Tokens.Storage

/-!
# Ingesting documents

A document is stored under the next free slot, which the counter of stored documents hands out: its id, its
body and its tokens (`Generator.ingest`).  As long as some field may lack a value, the slots before its
first value are filled.  A document that is no text is written as JSON text first
(`Generator.ingestDocument`).  As in `tokenize`, its strings hold no half of a pair of UTF-16 units.
-/

namespace GeoWorkload.Generator

variable {σ : Type} [CounterStore σ]

open Site

/-- The body of a document: a text as it is, any other value as JSON text. -/
def bodyOf : Json.Value → String
  | .string s => s
  | v => v.spacedText

/-- Fills the slots before the first values of all fields, up to a slot. -/
def repair (slot : Int) : Action (Site σ) Unit := do
  let g ← Action.look (·.generator)
  if !g.allInitialized && 1 < slot then
    let complete ← onCounters (backfillLeading g.schema slot)
    onGenerator (Action.change fun g => { g with allInitialized := complete })
    if complete then
      Action.log .debug ("All fields initialized after slot " ++ Numeral.decimal slot)

/-- Stores the body of a document under the next slot and gives the slot. -/
def ingest (key body : String) : Action (Site σ) Int := do
  let S ← ownSchema
  let tokenized := tokenize S body
  Action.logAll (tokenized.warnings.map (·.record))
  let tokens ← Action.ofExcept tokenized.result
  let slot := (← onCounters (CounterStore.increment S.storedKey 1)) - 1
  onCounters (CounterStore.set (S.docIdKey slot) key)
  onCounters (CounterStore.set (S.bodyKey slot) body)
  let _ ← onCounters (storeTokens S slot tokens)
  repair slot
  Action.log .debug ("Ingested " ++ key ++ " into slot " ++ Numeral.decimal slot)
  return slot

/-- The body of a document, unless it holds an integer that is too long to be written. -/
def bodyOf? (document : Json.Value) : Except NumberError String :=
  if document.isWritable then .ok (bodyOf document) else .error .unwritable

/-- Stores a document under the next slot and gives the slot. -/
def ingestDocument (key : String) (document : Json.Value) : Action (Site σ) Int := do
  ingest key (← Action.ofNumber (bodyOf? document))

end GeoWorkload.Generator
