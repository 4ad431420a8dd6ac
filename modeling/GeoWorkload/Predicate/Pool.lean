import GeoWorkload.Predicate
import GeoWorkload.Text.Quoted

/-!
# Pools of predicates

Predicates that are put together one by one and may be shared (`Pool`): `attach` puts one into a slot of
another, unless it has children already or is the other itself.  `Pool.tree` is the predicate that a
member of the pool has become.
-/

namespace GeoWorkload.Predicate

/-- Why a predicate is not attached. -/
inductive AttachError where
  | unknownSlot (slot : String)
  | hasChildren
  | isItself
deriving DecidableEq, Repr

/-- The wording of an attach error. -/
def AttachError.message : AttachError → String
  | unknownSlot slot => "unknown nested predicate slot " ++ Text.quoted slot
  | hasChildren => "nested predicates cannot carry children of their own"
  | isItself => "a predicate cannot nest itself"

/-- The children of a member by slot, in the order in which the slots were first filled. -/
abbrev Children (n : Nat) := List (Slot × Fin n)

namespace Children

variable {n : Nat}

/-- The child in a slot, if there is one. -/
def get? (cs : Children n) (slot : Slot) : Option (Fin n) :=
  (cs.find? fun child => child.1 = slot).map (·.2)

/-- The children with the one in a slot replaced, or added at the end. -/
def set : (cs : Children n) → (slot : Slot) → (child : Fin n) → Children n
  | [], slot, child => [(slot, child)]
  | (s, i) :: rest, slot, child =>
    if s = slot then (slot, child) :: rest else (s, i) :: set rest slot child

end Children

/-- A pool of `n` predicates. -/
structure Pool (n : Nat) where
  fields : Fin n → Fields
  children : Fin n → Children n

namespace Pool

variable {n : Nat}

/-- The pool in which no predicate has a child. -/
def ofFields (fields : Fin n → Fields) : Pool n := ⟨fields, fun _ => []⟩

/-- The pool with a child put into a slot of a member. -/
def put (p : Pool n) (parent : Fin n) (slot : Slot) (child : Fin n) : Pool n where
  fields := p.fields
  children i := if i = parent then (p.children i).set slot child else p.children i

/-- Puts a member into the named slot of another. -/
def attach (p : Pool n) (parent : Fin n) (slot : String) (child : Fin n) :
    Except AttachError (Pool n) :=
  match Slot.ofName? slot with
  | none => .error (.unknownSlot slot)
  | some slot =>
    if p.children child ≠ [] then .error .hasChildren
    else if child = parent then .error .isItself
    else .ok (p.put parent slot child)

/-- The predicate that a member has become, down to `levels` levels. -/
def treeWithin (p : Pool n) : (levels : Nat) → Fin n → Predicate
  | 0, _ => .absent
  | levels + 1, i =>
    let below := fun slot =>
      match (p.children i).get? slot with
      | some child => p.treeWithin levels child
      | none => .absent
    .node (p.fields i) (below .a) (below .b) (below .c) (below .d)

/-- The predicate that a member has become; no way down meets a member twice, so that `n` levels hold
it whole. -/
def tree (p : Pool n) (i : Fin n) : Predicate := p.treeWithin n i

end Pool

end GeoWorkload.Predicate
