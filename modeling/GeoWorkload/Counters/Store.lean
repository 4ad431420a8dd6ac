import GeoWorkload.Action
import GeoWorkload.Amount
import GeoWorkload.Json.Display
import GeoWorkload.Schema

/-!
# Counter stores

What a counter store offers to its users (`CounterStore`): texts under keys, and counters among them that
are incremented in one step.  Keys are labels, and a call under a broken label fails before the store is
asked.  `addByGetAndSet` is how a store without a better way sets a key that is absent, and `seedCounters`
makes a store ready for a workload; `seedFrom` does so from values, which need not be integers.
-/

namespace GeoWorkload

/-- The calls of a counter store on states `σ`. -/
class CounterStore (σ : Type) where
  /-- The text under a key, if there is one. -/
  get : Label → Action σ (Option String)
  /-- Puts a text under a key. -/
  set : Label → String → Action σ Unit
  /-- Adds to the integer under a key and gives the sum. -/
  increment : Label → Int → Action σ Int
  /-- Puts a text under a key that has none, and tells whether it did. -/
  add : Label → String → Action σ Bool
  /-- Ends the use of the store. -/
  close : Action σ Unit

namespace CounterStore

variable {σ : Type}

/-- Looks whether a key is there and puts a text under it if not. -/
def addByGetAndSet (get : Label → Action σ (Option String))
    (set : Label → String → Action σ Unit) (key : Label) (value : String) : Action σ Bool := do
  match ← get key with
  | some _ => return false
  | none =>
    set key value
    return true

variable [CounterStore σ]

/-- Puts an integer under a key that has none. -/
def addInteger (key : Label) (z : Int) : Action σ Unit := do
  let text ← Action.ofNumber (Numeral.writeInteger z)
  let _ ← add key text

/-- Puts the counters that a workload needs under the keys of the schema that have none: the number of
all documents, the number of the last insert and the number of stored documents. -/
def seedCounters (S : Schema) (total start : Int) : Action σ Unit := do
  addInteger S.totalKey total
  addInteger S.insertKey (total + 1 + start)
  addInteger S.storedKey 0

/-- The text of a value; an integer may be too long to have one. -/
def textOf : Json.Value → Except NumberError String
  | .int z => Numeral.writeInteger z
  | v => .ok v.display

/-- Seeds from values.  The number of all documents is added as it stands, and only then is it counted on, which
fails where one of the values is no number. -/
def seedFrom (S : Schema) (total start : Json.Value) : Action σ Unit := do
  let text ← Action.ofNumber (textOf total)
  let _ ← add S.totalKey text
  match Amount.ofValue? total, Amount.ofValue? start with
  | some total, some start =>
    let last ← Action.ofNumber (do (← total.add (.whole 1)).add start)
    let text ← Action.ofNumber (textOf last.toValue)
    let _ ← add S.insertKey text
    addInteger S.storedKey 0
  | _, _ => Action.fail .wrongKind

/-- From integers this is seeding. -/
theorem seedFrom_int (S : Schema) (total start : Int) :
    seedFrom S (.int total) (.int start) = (seedCounters S total start : Action σ Unit) := by
  have hlast : (do (← (Amount.whole total).add (.whole 1)).add (.whole start)) =
      (Except.ok (.whole (total + 1 + start)) : Except NumberError Amount) := rfl
  have hcount : ∀ f : Amount → Action σ Unit, (Action.ofNumber (Except.ok (.whole (total + 1 + start))) >>= f) =
      f (.whole (total + 1 + start)) := fun _ => rfl
  simp only [seedFrom, seedCounters, addInteger, textOf, Amount.ofValue?, Amount.toValue, hlast, hcount, bind_assoc,
    pure_bind]

/-- The integer that a counter holds. -/
def readCounter (key : Label) : Action σ Int := do
  match ← get key with
  | none => Action.fail (.counterMissing key)
  | some text =>
    match Numeral.readInteger text with
    | .ok z => return z
    | .error _ => Action.fail (.counterNotInteger key text)

end CounterStore

end GeoWorkload
