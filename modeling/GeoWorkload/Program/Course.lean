import GeoWorkload.Program.Exit
import GeoWorkload.Counters.Server

/-!
# The course of a run

What the program finds where it runs (`Surroundings`), what a run changes there (`World`), and the steps that
a run consists of (`Step`): they work on the world, add to the log and may end the run.
-/

namespace GeoWorkload

/-- What the program finds where it runs, apart from files.  `stamp` is the time in the name of a log file
and `lineStamp` the one before its lines, `elapsed` what is measured of the seconds that a phase took, and
`moment` the seed where none is given; `isOver` tells whether a worker that has made so many turns has been
at it for a number of seconds. -/
structure Surroundings where
  environment : Environment := []
  homes : Homes
  stamp : String
  lineStamp : String
  elapsed : String
  moment : Int
  isOver : Binary64 → Nat → Bool
  server : Server := {}

/-- What lasts beyond a run: the files and the schemas that have been defined. -/
structure World where
  files : Files := {}
  registry : Registry := .initial

/-- What a run has made of the world, the records it has shown, the file that they also go to and the least
level that is shown. -/
structure Course where
  world : World
  log : Log := #[]
  logFile : Option Path := none
  least : LogLevel := .info

/-- A step of a run, which may end it; what it did before stays done. -/
abbrev Step := ExceptT Exit (StateM Course)

namespace Course

/-- The bytes that a log file gains with a record. -/
def lineBytes (m : Surroundings) (record : LogRecord) : ByteArray :=
  (m.lineStamp ++ " " ++ record.line ++ "\n").toUTF8

/-- The course after a record, which is kept if its level is shown. -/
def note (m : Surroundings) (c : Course) (record : LogRecord) : Course :=
  if record.isShown c.least then
    let files := match c.logFile with
      | some path => ((FileChange.append path (lineBytes m record)).run.run c.world.files).2
      | none => c.world.files
    { c with log := c.log.push record, world := { c.world with files } }
  else c

/-- The course after a list of records. -/
def noteAll (m : Surroundings) (c : Course) (records : List LogRecord) : Course :=
  records.foldl (note m) c

end Course

namespace Step

variable {α : Type}

/-- Ends the run. -/
def quit (e : Exit) : Step α := throw e

/-- The value of a computation that may end the run. -/
def ofExcept (r : Except Exit α) : Step α := ExceptT.mk (pure r)

/-- What a step gives, or the exit it leads to, which does not end the run. -/
def attempt (x : Step α) : Step (Except Exit α) := fun c =>
  let (r, c) := x.run.run c
  ((.ok r : Except Exit (Except Exit α)), c)

/-- Makes a record. -/
def log (m : Surroundings) (level : LogLevel) (text : String) : Step Unit :=
  modify fun c => c.note m ⟨level, text⟩

/-- Makes the given records. -/
def logAll (m : Surroundings) (records : List LogRecord) : Step Unit :=
  modify fun c => c.noteAll m records

/-- The files as they are. -/
def files : Step Files := return (← get).world.files

/-- Changes the files; a fault ends the run. -/
def change (x : FileChange Unit) : Step Unit := fun c =>
  let (r, files) := x.run.run c.world.files
  (r.mapError fun fault => .escaped (.file fault), { c with world := { c.world with files } })

/-- The path that a text writes. -/
def path (m : Surroundings) (text : String) : Step Path :=
  ofExcept ((Files.pathOf m.homes text).mapError fun fault => .escaped (.file fault))

end Step

end GeoWorkload
