import GeoWorkload.Action
import GeoWorkload.Request

/-!
# Traces

The store of documents that a workload runs against (`DocumentStore`) keeps a trace: each request becomes
one line of JSON (`Trace`), unless the stream refuses to write it.  A request that holds an integer too long to
be written has no line, and fails before the stream is asked.  Other stores support no operation, or have been
given nothing to write to.
-/

namespace GeoWorkload

/-- The lines written to a stream, the newest last, the number of requests among them and the number of
attempts to write.  The attempts listed in `refused`, counted from one, fail. -/
structure Trace where
  lines : Array String := #[]
  records : Nat := 0
  attempts : Nat := 0
  refused : List Nat := []
deriving DecidableEq, Repr

namespace Trace

/-- The trace that nothing has been written to. -/
def empty : Trace := {}

instance : Inhabited Trace := ⟨empty⟩

/-- The text written: every line with its end. -/
def text (t : Trace) : String := String.join (t.lines.toList.map (· ++ "\n"))

/-- What is said of a refused write. -/
def refusal : String := "disk full"

/-- Writes a request as a line.  The line is made before anything is attempted. -/
def write (r : Request) : Action Trace Status := do
  let line ← Action.ofNumber r.line?
  let t ← Action.look id
  let attempts := t.attempts + 1
  if t.refused.contains attempts then
    Action.change fun t => { t with attempts }
    Action.log .warning ("Trace write failed for " ++ r.operation.name ++ ": " ++ refusal)
    return .error
  else
    Action.change fun t =>
      { t with attempts, lines := t.lines.push line, records := t.records + 1 }
    return .ok

end Trace

/-- A store of documents. -/
inductive DocumentStore where
  /-- A store that supports no operation. -/
  | bare
  /-- A store that keeps a trace. -/
  | trace (trace : Trace)
  /-- A store that was given a value of some kind in place of a stream. -/
  | misdirected (kind : String)
deriving DecidableEq, Repr

namespace DocumentStore

/-- The number of requests that the store has recorded. -/
def records : DocumentStore → Nat
  | trace t => t.records
  | _ => 0

/-- The lines that the store has written. -/
def lines : DocumentStore → List String
  | trace t => t.lines.toList
  | _ => []

/-- Carries out a request. -/
def request (r : Request) : Action DocumentStore Status := do
  match ← Action.look id with
  | bare =>
    Action.log .debug ("GeoStore does not implement " ++ r.operation.name)
    return .notImplemented
  | trace t =>
    Action.within (fun _ => t) (fun t _ => trace t) (Trace.write r)
  | misdirected kind =>
    let _ ← Action.ofNumber r.line?
    Action.fail (.noStream kind)

end DocumentStore

end GeoWorkload
