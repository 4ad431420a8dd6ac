import GeoWorkload.Program.Run
import Std.Time.Format
import Std.Time.Zoned

/-!
# The command line program

The outer layer of the program: it fetches the files that a run may look at, works the run out, and then writes
what the run has changed and shown.  A run thus takes no time of its own: a duration is counted in turns
of a worker, at a fixed pace.
-/

namespace GeoWorkload.Terminal

/-- The number of turns that a worker makes in a second. -/
def turnsPerSecond : Nat := 20000

/-- What the program finds where it runs. -/
def surroundings : IO Surroundings := do
  let now ← Std.Time.PlainDateTime.now
  let seconds := (← Std.Time.Timestamp.now).toSecondsSinceUnixEpoch.val
  let names := ["COUNTER_BACKEND", "COUNTER_HOST", "COUNTER_PORT", "COUNTER_USER",
    "COUNTER_PASSWORD", "COUNTER_SOCKET", "COUNTER_DATABASE", "GEO_CORPUS", "GEO_WORKERS",
    "GEO_OPERATIONS", "GEO_DURATION", "GEO_OUTPUT", "GEO_DISTRIBUTION", "GEO_SEED"]
  let environment ← names.filterMapM fun name => do
    return (← IO.getEnv name).map fun value => (name, value)
  let home ← IO.getEnv "HOME"
  return {
    environment
    homes := fun user => if user = "" then home else none
    stamp := now.format "uuuuMMdd_HHmmss"
    lineStamp := now.format "uuuu-MM-dd HH:mm:ss,SSS"
    elapsed := "0.0"
    moment := seconds
    isOver := fun seconds done => seconds.le (.ofRatio false done turnsPerSecond) }

/-- The text of a place. -/
def textOf (p : Place) : String :=
  (if p.isAbsolute then "/" else if p.names.isEmpty then "." else "") ++
    String.intercalate "/" p.names

/-- What stands at a place, if anything does. -/
def fetch (p : Place) : IO (Option FileNode) := do
  try
    let path ← IO.FS.realPath (textOf p)
    if ← path.isDir then return some .directory
    return some (.file (← IO.FS.readBinFile path))
  catch _ => return none

/-- The files with what stands on the way that names lead from a place. -/
def fetchAlong (files : Files) (start : Place) : List String → IO Files
  | [] => return files
  | name :: rest => do
    let next := start.step name
    match ← fetch next with
    | none => return files
    | some node => fetchAlong (files.put next node) next rest

/-- The files with those of the given names fetched. -/
def fetchAll (m : Surroundings) (files : Files) : List String → IO Files
  | [] => return files
  | name :: rest => do
    let files ← match Files.pathOf m.homes name with
      | .ok p => fetchAlong files (Files.startOf p) p.names
      | .error _ => pure files
    fetchAll m files rest

/-- Writes what stands at a place and did not before. -/
def store (before : Files) (p : Place) (node : FileNode) : IO Unit := do
  match node, before.at? p with
  | .directory, some _ => return
  | .directory, none => IO.FS.createDirAll (textOf p)
  | .file bytes, some (.file old) =>
    if old.size < bytes.size then
      let handle ← IO.FS.Handle.mk (textOf p) .append
      handle.write (bytes.extract old.size bytes.size)
  | .file bytes, _ => IO.FS.writeBinFile (textOf p) bytes

/-- The program. -/
def run (args : List String) : IO UInt32 := do
  let m ← surroundings
  let files ← fetchAll m {} (Program.fileNames m args {})
  let files ← fetchAll m files (Program.fileNames m args files)
  let outcome := Program.run m args { files }
  for (p, node) in outcome.world.files.nodes do
    store files p node
  for record in outcome.log do
    IO.println (m.lineStamp ++ " " ++ record.line)
  match outcome.exit with
  | .code _ => pure ()
  | .help => IO.println (Arguments.usage)
  | .usage e => IO.eprintln (Arguments.usage ++ "\n" ++ "error: " ++ e.message)
  | .refused r => IO.eprintln r.message
  | .escaped e => IO.eprintln e.message
  return outcome.exit.status.toUInt32

end GeoWorkload.Terminal

def main (args : List String) : IO UInt32 := GeoWorkload.Terminal.run args
