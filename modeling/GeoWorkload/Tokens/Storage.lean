import GeoWorkload.Counters.Store
import GeoWorkload.Tokens.Tokenize

/-!
# Stored tokens

The tokens of the document in a slot are kept under the field keys of the slot.  A field without a token
takes the value of the nearest earlier slot that has one (`storeTokens`), and the slots before the first
value of a field take that value (`backfillLeading`).
-/

namespace GeoWorkload

variable {σ : Type} [CounterStore σ]

/-- The value of a field in the last of the first `slots` slots that has one. -/
def seekBack (S : Schema) (path : Label) : (slots : Nat) → Action σ (Option String)
  | 0 => return none
  | slots + 1 => do
    match ← CounterStore.get (S.fieldKey path slots) with
    | some value => return some value
    | none => seekBack S path slots

/-- Keeps one token of a slot, or the nearest earlier value of its field, and gives what was kept. -/
def storeToken (S : Schema) (slot : Int) (path : Label) (value : Option String) :
    Action σ (Option String) := do
  match value with
  | some text =>
    CounterStore.set (S.fieldKey path slot) text
    return some text
  | none =>
    match ← seekBack S path slot.toNat with
    | some text =>
      CounterStore.set (S.fieldKey path slot) text
      return some text
    | none => return none

/-- Keeps the tokens of a slot in turn and gives what was kept. -/
def storeTokens (S : Schema) (slot : Int) : Tokens → Action σ Tokens
  | [] => return []
  | (path, value) :: rest => do
    let kept ← storeToken S slot path value
    return (path, kept) :: (← storeTokens S slot rest)

/-- The first of `slots` slots from `slot` on that has a value of the field, with the value. -/
def seekForward (S : Schema) (path : Label) :
    (slots slot : Nat) → Action σ (Option (Nat × String))
  | 0, _ => return none
  | slots + 1, slot => do
    match ← CounterStore.get (S.fieldKey path slot) with
    | some value => return some (slot, value)
    | none => seekForward S path slots (slot + 1)

/-- Puts a value of a field into the first `slots` slots, the last of them first. -/
def copyDown (S : Schema) (path : Label) (value : String) : (slots : Nat) → Action σ Unit
  | 0 => return
  | slots + 1 => do
    CounterStore.set (S.fieldKey path slots) value
    copyDown S path value slots

/-- Fills the slots before the first value of a field among the slots up to `slot`, and tells whether there
is one. -/
def backfillField (S : Schema) (slot : Int) (path : Label) : Action σ Bool := do
  match ← seekForward S path (slot + 1).toNat 0 with
  | some (first, value) =>
    copyDown S path value first
    return true
  | none =>
    Action.log .debug ("Field " ++ path.display ++ " has no value in slots 0.." ++
      Numeral.decimal slot ++ " yet")
    return false

/-- Fills the slots before the first value of each of the fields, and tells whether all have one. -/
def backfillFields (S : Schema) (slot : Int) : List Label → Action σ Bool
  | [] => return true
  | path :: rest => do
    let found ← backfillField S slot path
    let others ← backfillFields S slot rest
    return found && others

/-- Fills the slots before the first value of each field of the schema. -/
def backfillLeading (S : Schema) (slot : Int) : Action σ Bool :=
  backfillFields S slot S.fieldPaths

/-- The values kept for the named fields in a slot. -/
def readFields (S : Schema) (slot : Int) : List Label → Action σ Tokens
  | [] => return []
  | path :: rest => do
    let value ← CounterStore.get (S.fieldKey path slot)
    return (path, value) :: (← readFields S slot rest)

/-- The values kept for all fields of the schema in a slot. -/
def readTokens (S : Schema) (slot : Int) : Action σ Tokens := do
  return LabelMap.setAll [] (← readFields S slot S.fieldPaths)

end GeoWorkload
