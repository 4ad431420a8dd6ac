import GeoWorkload.Action
import GeoWorkload.Amount
import GeoWorkload.Random.Source

/-!
# Mixes

A mix draws its items with given weights (`Mix`).  A draw takes one random number and picks the first item
whose cumulative weight lies above that share of the total.
-/

namespace GeoWorkload

/-- Items with positive weights, at least one. -/
structure Mix (α : Type) where
  head : α × Binary64
  tail : List (α × Binary64)
deriving DecidableEq, Repr

namespace Mix

variable {α : Type}

/-- The mix of the items that have a positive weight. -/
def ofWeights (weights : List (α × Binary64)) : Except Failure (Mix α) :=
  match weights.filter fun item => item.2.isPositive with
  | [] => .error .noPositiveWeight
  | head :: tail => .ok ⟨head, tail⟩

/-- The weight that a value gives, zero for one that is not positive. -/
def weightOf (v : Json.Value) : Except Failure Binary64 :=
  match Amount.ofValue? v with
  | none => .error .wrongKind
  | some n => if n.isAbove 0 then n.toReal.mapError .number else .ok 0

/-- The names of an object with the weights that its values give. -/
def weightsOf (members : Json.Members) : Except Failure (List (String × Binary64)) :=
  members.mapM fun (name, v) => do return (name, ← weightOf v)

/-- The items with their weights. -/
def toList (mix : Mix α) : List (α × Binary64) := mix.head :: mix.tail

/-- The items. -/
def items (mix : Mix α) : List α := mix.toList.map (·.1)

/-- The sum of all weights, added one by one. -/
def total (mix : Mix α) : Binary64 :=
  mix.tail.foldl (fun sum item => sum + item.2) mix.head.2 + 0

/-- The first item whose cumulative weight lies above `share`, or the last one; `sum` is the weight
before the first item. -/
def pickFrom (share : Binary64) : (sum : Binary64) → (item : α × Binary64) →
    List (α × Binary64) → α
  | _, item, [] => item.1
  | sum, item, next :: rest =>
    if share.lt (sum + item.2) then item.1 else pickFrom share (sum + item.2) next rest

/-- The item that a share of the total picks. -/
def pick (mix : Mix α) (share : Binary64) : α :=
  match mix.tail with
  | [] => mix.head.1
  | next :: rest =>
    if share.lt mix.head.2 then mix.head.1 else pickFrom share mix.head.2 next rest

/-- Draws an item, for a total that is positive and finite. -/
def draw (mix : Mix α) : Action RandomSource α := do
  let total := mix.total
  if total.le 0 then Action.fail .weightsNotPositive
  else if !total.isFinite then Action.fail .weightsNotFinite
  else
    Action.step fun s =>
      let (u, s) := s.unit
      (.ok (mix.pick (u * total)), s)

end Mix

end GeoWorkload
