import GeoWorkload.Counters.Memory

/-!
# A store that fails on demand

A store in memory whose calls may be refused before they take effect (`FaultyStore`).  A fault waits for
calls of one kind, on one key or on any, lets a number of them pass and then refuses one
(`Fault.strike`).
-/

namespace GeoWorkload

/-- The calls that may be refused. -/
inductive StoreCall where
  | get
  | set
  | increment
deriving DecidableEq, Repr

/-- The call of a name. -/
def StoreCall.ofName? : String → Option StoreCall
  | "get" => some get
  | "set" => some set
  | "increment" => some increment
  | _ => none

/-- A refusal to come: of which calls, on which key or on any, after how many that pass, and what is
said. -/
structure Fault where
  call : StoreCall
  key : Option Label
  after : Nat
  message : String
deriving DecidableEq, Repr

namespace Fault

/-- Whether the fault waits for a call. -/
def isFor (f : Fault) (call : StoreCall) (key : Label) : Bool :=
  f.call = call && f.key.all key.same

/-- What becomes of the faults at a call: those that wait for it let it pass, one less to go, up to the
first that has none to go, which refuses it and is gone. -/
def strike (call : StoreCall) (key : Label) : List Fault → Option String × List Fault
  | [] => (none, [])
  | f :: rest =>
    if f.isFor call key then
      if f.after = 0 then (some f.message, rest)
      else
        let (refusal, rest) := strike call key rest
        (refusal, { f with after := f.after - 1 } :: rest)
    else
      let (refusal, rest) := strike call key rest
      (refusal, f :: rest)

end Fault

/-- A store in memory, the faults that wait and the number of times it was closed. -/
structure FaultyStore where
  memory : MemoryStore := .empty
  faults : List Fault := []
  closes : Nat := 0

namespace FaultyStore

/-- The text under a key, if there is one. -/
def get? (s : FaultyStore) (key : Label) : Option String := s.memory.get? key

/-- The store with one more fault, behind those that wait. -/
def arm (s : FaultyStore) (f : Fault) : FaultyStore := { s with faults := s.faults ++ [f] }

/-- A call on the memory, unless a fault refuses it. -/
def guarded {α : Type} (call : StoreCall) (key : Label)
    (f : MemoryStore → Except Failure α × MemoryStore) : Action FaultyStore α :=
  match key with
  | .broken fault => Action.fail (.label fault)
  | key => Action.step fun s =>
    match Fault.strike call key s.faults, key.keyFault? with
    | (some message, faults), _ => (.error (.callRefused message), { s with faults })
    | (none, faults), some fault => (.error (.label fault), { s with faults })
    | (none, faults), none =>
      let (r, memory) := f s.memory
      (r, { s with memory, faults })

/-- The text under a key, if there is one, unless refused. -/
def get (key : Label) : Action FaultyStore (Option String) :=
  guarded .get key fun m => (.ok (m.get? key), m)

/-- Puts a text under a key, unless refused. -/
def set (key : Label) (value : String) : Action FaultyStore Unit :=
  guarded .set key fun m => (.ok (), m.put key value)

instance : CounterStore FaultyStore where
  get := get
  set := set
  increment key step := guarded .increment key fun m => m.increment key step
  add := CounterStore.addByGetAndSet get set
  close := Action.change fun s => { s with closes := s.closes + 1 }

end FaultyStore

end GeoWorkload
