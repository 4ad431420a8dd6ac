import GeoWorkload.Failure
import GeoWorkload.Log

/-!
# Actions

An action works on a state, makes log records and either gives a value or fails; what it did before it
failed stays done (`Action`).  An action on a part of a state is one on the whole
(`Action.within`).
-/

namespace GeoWorkload

/-- A step on states `σ` that gives an `α` or fails, and keeps what it did. -/
abbrev Action (σ α : Type) := ExceptT Failure (StateT σ (StateM Log)) α

namespace Action

variable {σ τ α : Type}

/-- Makes a log record. -/
def log (level : LogLevel) (text : String) : Action σ Unit :=
  fun s log => (((.ok (), s) : Except Failure Unit × σ), log.push ⟨level, text⟩)

/-- Makes the given log records. -/
def logAll (records : List LogRecord) : Action σ Unit :=
  fun s log => (((.ok (), s) : Except Failure Unit × σ), log ++ records)

/-- The part of the state that `get` shows. -/
def look (get : σ → α) : Action σ α :=
  fun s log => (((.ok (get s), s) : Except Failure α × σ), log)

/-- Changes the state. -/
def change (f : σ → σ) : Action σ Unit :=
  fun s log => (((.ok (), f s) : Except Failure Unit × σ), log)

/-- Fails. -/
def fail (f : Failure) : Action σ α :=
  fun s log => (((.error f, s) : Except Failure α × σ), log)

/-- A step given as a function of the state. -/
def step (f : σ → Except Failure α × σ) : Action σ α :=
  fun s log => (f s, log)

/-- An action on the part of a state that `get` shows and `set` puts back. -/
def within (get : τ → σ) (set : σ → τ → τ) (x : Action σ α) : Action τ α :=
  fun t log =>
    let ((r, s), log) := x (get t) log
    (((r, set s t) : Except Failure α × τ), log)

/-- What the action gives on failing, its effects kept. -/
def attempt (x : Action σ α) : Action σ (Except Failure α) :=
  fun s log =>
    let ((r, s), log) := x s log
    (((.ok r, s) : Except Failure (Except Failure α) × σ), log)

/-- What an action gives when it is carried out a number of times in turn. -/
def times : Nat → Action σ α → Action σ (List α)
  | 0, _ => return []
  | n + 1, x => do
    let a ← x
    return a :: (← times n x)

/-- The outcome of an action with the state and the records after it. -/
def run (x : Action σ α) (s : σ) (log : Log) : (Except Failure α × σ) × Log := x s log

/-- The value of a computation without effects. -/
def ofExcept (r : Except Failure α) : Action σ α :=
  fun s log => (((r, s) : Except Failure α × σ), log)

/-- The value of a computation on numbers. -/
def ofNumber (r : Except NumberError α) : Action σ α :=
  ofExcept (r.mapError .number)

/-- The value of a computation on labels. -/
def ofLabel (r : Except LabelFault α) : Action σ α :=
  ofExcept (r.mapError .label)

/-- The outcome of an action without the records. -/
def outcome (x : Action σ α) (s : σ) : Except Failure α := (x s #[]).1.1

/-- The state after an action. -/
def after (x : Action σ α) (s : σ) : σ := (x s #[]).1.2

end Action

end GeoWorkload
