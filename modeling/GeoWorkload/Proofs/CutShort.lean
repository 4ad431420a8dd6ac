import GeoWorkload.Counters.Faulty
import GeoWorkload.Proofs.Outcomes

/-!
# Actions that are cut short

An action on a store that fails on demand may be cut short by its faults, and be started again each time, until it is
carried to its end (`FaultyStore.resumed`).  Where each turn leaves the memory in a relation to the memory before it
that is reflexive and transitive, however the turn ends, so do all the turns (`FaultyStore.interrupted_returns`).
-/

namespace GeoWorkload.FaultyStore

variable {α : Type}

/-- An action in turns, one under each list of faults, each left where it ends. -/
def interrupted (x : Action FaultyStore α) : List (List Fault) → Action FaultyStore Unit
  | [] => return
  | faults :: rest => do
    Action.change fun s => { s with faults }
    let _ ← x.attempt
    interrupted x rest

/-- An action under the faults `last` after turns of it that were left where they ended. -/
def resumed (x : Action FaultyStore α) (cuts : List (List Fault)) (last : List Fault) : Action FaultyStore α := do
  interrupted x cuts
  Action.change fun s => { s with faults := last }
  x

variable {x : Action FaultyStore α} (leads : MemoryStore → MemoryStore → Prop) (hrefl : ∀ m, leads m m)
  (htrans : ∀ {m m' m''}, leads m m' → leads m' m'' → leads m m'')
  (hturn : ∀ s, x.Ensures s (fun _ s' => leads s.memory s'.memory) fun _ s' => leads s.memory s'.memory)
include hrefl htrans hturn

/-- What any turn of the action keeps of the memory is kept by all of them. -/
theorem interrupted_returns (cuts : List (List Fault)) (s : FaultyStore) :
    (interrupted x cuts).Returns s fun _ s' => leads s.memory s'.memory := by
  induction cuts generalizing s with
  | nil => exact Action.ensures_pure.mpr (hrefl s.memory)
  | cons faults rest ih =>
      unfold interrupted
      refine Action.ensures_change_bind ?_
      have hfirst : x.attempt.Returns { s with faults } fun _ s' => leads s.memory s'.memory :=
        Action.Ensures.attempt (hturn { s with faults })
      refine hfirst.bind (fun _ s' hs' => ?_) fun _ _ h => h
      exact (ih s').mono (fun _ _ h => htrans hs' h) fun _ _ h => h

/-- The last turn starts from what the others leave. -/
theorem resumed_ensures (cuts : List (List Fault)) (last : List Fault) {s : FaultyStore} {ok : α → FaultyStore → Prop}
    {failed : Failure → FaultyStore → Prop}
    (hlast : ∀ s' : FaultyStore, leads s.memory s'.memory → x.Ensures { s' with faults := last } ok failed) :
    (resumed x cuts last).Ensures s ok failed := by
  unfold resumed
  refine (interrupted_returns leads hrefl htrans hturn cuts s).bind (fun _ s' hs' => ?_) fun _ _ h => h.elim
  exact Action.ensures_change_bind (hlast s' hs')

end GeoWorkload.FaultyStore
