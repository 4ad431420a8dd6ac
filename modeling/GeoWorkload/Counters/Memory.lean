import GeoWorkload.Counters.Store
import GeoWorkload.Label.Map
import Std.Data.TreeMap

/-!
# The store in memory

A map from keys to texts (`MemoryStore`).  An increment reads the text under the key as an integer and
puts back the decimal of the sum.
-/

namespace GeoWorkload

/-- The texts under their keys: those under keys that are texts, in order of the keys, and the others. -/
structure MemoryStore where
  entries : Std.TreeMap String String := ∅
  others : LabelMap String := []

namespace MemoryStore

/-- The store that holds nothing. -/
def empty : MemoryStore := {}

instance : Inhabited MemoryStore := ⟨empty⟩

/-- The text under a key, if there is one. -/
def get? (m : MemoryStore) : Label → Option String
  | .text key => m.entries[key]?
  | key => m.others.get? key

/-- The store with a text put under a key. -/
def put (m : MemoryStore) (key : Label) (value : String) : MemoryStore :=
  match key with
  | .text key => { m with entries := m.entries.insert key value }
  | key => { m with others := m.others.set key value }

/-- The number of keys. -/
def size (m : MemoryStore) : Nat := m.entries.size + m.others.length

/-- The keys and their texts, those that are texts first and in order. -/
def toList (m : MemoryStore) : List (Label × String) :=
  m.entries.toList.map (fun (key, value) => (.text key, value)) ++ m.others

theorem get?_put (m : MemoryStore) (key other : Label) (value : String) :
    (m.put key value).get? other = if key.same other then some value else m.get? other := by
  cases key with
  | text k =>
    cases other with
    | text o => simp [get?, put, Std.TreeMap.getElem?_insert]
    | _ => simp [get?, put, Label.text_same_iff]
  | _ =>
    cases other with
    | text o => simp [get?, put, Label.same_text_iff]
    | _ => simp only [get?, put, LabelMap.get?_set]

@[simp] theorem get?_put_self (m : MemoryStore) (key : Label) (value : String) :
    (m.put key value).get? key = some value := by
  simp [get?_put, Label.same_self]

@[simp] theorem get?_empty (key : Label) : empty.get? key = none := by
  cases key <;> simp [get?, empty]

/-- Adds to the integer under a key. -/
def increment (m : MemoryStore) (key : Label) (step : Int) : Except Failure Int × MemoryStore :=
  match m.get? key with
  | none => (.error (.counterMissing key), m)
  | some text =>
    match Numeral.readInteger text with
    | .error _ => (.error (.counterNotInteger key text), m)
    | .ok z =>
      match Numeral.writeInteger (z + step) with
      | .error e => (.error (.number e), m)
      | .ok text => (.ok (z + step), m.put key text)

/-- Puts a text under a key that has none. -/
def add (m : MemoryStore) (key : Label) (value : String) : Bool × MemoryStore :=
  match m.get? key with
  | some _ => (false, m)
  | none => (true, m.put key value)

/-- A call under a key, which fails where the label is none. -/
def under {α : Type} (key : Label) (f : MemoryStore → Except Failure α × MemoryStore) :
    Action MemoryStore α :=
  match key.keyFault? with
  | some fault => Action.fail (.label fault)
  | none => Action.step f

instance : CounterStore MemoryStore where
  get key := under key fun m => (.ok (m.get? key), m)
  set key value := under key fun m => (.ok (), m.put key value)
  increment key step := under key fun m => m.increment key step
  add key value := under key fun m =>
    let (added, m) := m.add key value
    (.ok added, m)
  close := pure ()

end MemoryStore

end GeoWorkload
