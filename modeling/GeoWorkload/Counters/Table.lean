import GeoWorkload.Conversion
import GeoWorkload.Counters.Server
import GeoWorkload.Counters.Store

/-!
# The store in a table

A counter store kept in a table with a column for the key and one for the text (`TableStore`).  It
connects to its server when it is first used and keeps the connection until it is closed; what the server
reports becomes a failure of the store.  An increment lets the server add and then asks for the sum on the
same connection.
-/

namespace GeoWorkload

/-- How a server is reached, as it is configured: null and what is empty stand for nothing. -/
structure Access where
  host : Json.Value := .string "127.0.0.1"
  port : Json.Value := .int 3306
  user : Json.Value := .string "root"
  password : Json.Value := .null
  socket : Json.Value := .null
  database : Json.Value := .null
deriving DecidableEq, Repr

namespace Access

/-- The names of the members that give an access. -/
def memberNames : List String := ["host", "port", "user", "password", "socket", "db"]

/-- The access that members give, the usual one where they are absent; nothing where another member is
there. -/
def ofMembers? (m : Json.Members) : Option Access :=
  if m.all fun member => memberNames.contains member.1 then
    some {
      host := (m.get? "host").getD (.string "127.0.0.1")
      port := (m.get? "port").getD (.int 3306)
      user := (m.get? "user").getD (.string "root")
      password := m.get "password"
      socket := m.get "socket"
      database := m.get "db" }
  else none

/-- Where the server is: at a socket, or at a port of a host. -/
def target (a : Access) : Json.Value :=
  if a.socket.isTruthy then a.socket else .string (a.host.display ++ ":" ++ a.port.display)

/-- The parameters of a connection; without a timeout the client waits as long as it likes. -/
def parameters (a : Access) (timeout : Json.Value) : Json.Members :=
  [("user", a.user),
    ("password", if a.password.isTruthy then a.password else .string ""),
    ("charset", .string "utf8mb4"), ("autocommit", .bool true)] ++
    (if timeout = .null then [] else [("connect_timeout", timeout)]) ++
    if a.socket.isTruthy then [("unix_socket", a.socket)]
    else [("host", a.host), ("port", a.port)]

end Access

/-- A store in a table: how its server is reached, the table, the answers to come, the connection in use,
the number of connections made and the calls made, the latest first. -/
structure TableStore where
  access : Access
  table : String := "geo_counters"
  timeout : Json.Value := .int 5
  server : Server := {}
  held : Option Nat := none
  opened : Nat := 0
  calls : List ServerCall := []

namespace TableStore

/-- A store that has not been used, for an access that names a database. -/
def make (access : Access) (table : String) (timeout : Json.Value) (server : Server) :
    Except Failure TableStore :=
  if access.database.isTruthy then .ok { access, table, timeout, server }
  else .error .databaseMissing

/-- The failure that an error becomes in a call of the store. -/
def failureOf (wrap : String → Failure) (e : DriverError) : Failure :=
  if e.isOfServer then wrap e.text else .driverFailed e.text

/-- Makes a connection and selects the database; a connection without its database is not kept. -/
def connectStep (s : TableStore) : Except Failure Unit × TableStore :=
  let (outcome, connects) := Server.next .connected s.server.connects
  let connecting := ServerCall.connect (s.access.parameters s.timeout)
  let selecting := ServerCall.selectDatabase s.opened s.access.database
  let fail := fun e => failureOf (.unreachable s.access.target.display) e
  let s := { s with server := { s.server with connects } }
  match outcome with
  | .refused e => (.error (fail e), { s with calls := connecting :: s.calls })
  | .notSelected e =>
    (.error (fail e), { s with opened := s.opened + 1, calls := selecting :: connecting :: s.calls })
  | .connected =>
    (.ok (), { s with
      held := some s.opened, opened := s.opened + 1, calls := selecting :: connecting :: s.calls })

/-- The connection in use, made if there is none. -/
def connection : Action TableStore Nat := do
  match ← Action.look (·.held) with
  | some n => return n
  | none =>
    let n ← Action.look (·.opened)
    Action.step connectStep
    let target ← Action.look (·.access.target)
    Action.log .debug ("Opened counter store connection to " ++ target.display)
    return n

/-- Opens a cursor on the connection in use. -/
def cursor (wrap : String → Failure) : Action TableStore Nat := do
  let n ← connection
  Action.step fun s =>
    let (fault, cursors) := Server.next none s.server.cursors
    let s := { s with server := { s.server with cursors } }
    match fault with
    | some e => (.error (failureOf wrap e), s)
    | none => (.ok n, s)

/-- Executes a statement on a connection. -/
def execute (wrap : String → Failure) (n : Nat) (statement : String) (parameters : Json.Value) :
    Action TableStore Reply :=
  Action.step fun s =>
    let (reply, statements) := Server.next (.ok {}) s.server.statements
    let s := { s with
      server := { s.server with statements }
      calls := .execute n statement parameters :: s.calls }
    (reply.mapError (failureOf wrap), s)

/-- The first row of a reply. -/
def fetch (wrap : String → Failure) (reply : Reply) : Action TableStore Json.Value :=
  Action.step fun s =>
    let (fault, rows) := Server.next none s.server.rows
    let s := { s with server := { s.server with rows } }
    match fault with
    | some e => (.error (failureOf wrap e), s)
    | none => (.ok reply.row, s)

/-- The statement that makes the table. -/
def createStatement (table : String) : String :=
  "CREATE TABLE IF NOT EXISTS `" ++ table ++
    "` ( k VARCHAR(255) NOT NULL PRIMARY KEY, v LONGTEXT NOT NULL) DEFAULT CHARACTER SET utf8mb4"

/-- The statement that reads a text. -/
def selectStatement (table : String) : String := "SELECT v FROM `" ++ table ++ "` WHERE k = %s"

/-- The statement that puts a text. -/
def putStatement (table : String) : String :=
  "INSERT INTO `" ++ table ++ "` (k, v) VALUES (%s, %s) ON DUPLICATE KEY UPDATE v = VALUES(v)"

/-- The statement that puts a text under a key that has none. -/
def addStatement (table : String) : String :=
  "INSERT IGNORE INTO `" ++ table ++ "` (k, v) VALUES (%s, %s)"

/-- The statement that adds to a counter. -/
def incrementStatement (table : String) : String :=
  "UPDATE `" ++ table ++ "` SET v = LAST_INSERT_ID(CAST(v AS SIGNED) + %s) WHERE k = %s"

/-- The statement that asks for the sum of the last increment. -/
def sumStatement : String := "SELECT LAST_INSERT_ID() AS v"

/-- The column of the text in a row. -/
def column (row : Json.Value) : Except Failure Json.Value :=
  match row with
  | .object members =>
    match Json.Members.get? members "v" with
    | some v => .ok v
    | none => .error .columnMissing
  | _ => .error .wrongKind

/-- Makes the table if it is not there. -/
def ensureTable : Action TableStore Unit := do
  let table ← Action.look (·.table)
  let wrap := Failure.tableRefused table
  let n ← cursor wrap
  let _ ← execute wrap n (createStatement table) .null

/-- What is stored under a key, or null. -/
def read (key : Label) : Action TableStore Json.Value := do
  let key ← Action.ofLabel key.unbroken
  let table ← Action.look (·.table)
  let wrap := Failure.statementFailed "get" key
  let n ← cursor wrap
  let reply ← execute wrap n (selectStatement table) (.array [key.toJson])
  let row ← fetch wrap reply
  if row.isTruthy then Action.ofExcept (column row) else return .null

/-- Puts a text under a key. -/
def put (key : Label) (value : String) : Action TableStore Unit := do
  let key ← Action.ofLabel key.unbroken
  let table ← Action.look (·.table)
  let wrap := Failure.statementFailed "set" key
  let n ← cursor wrap
  let _ ← execute wrap n (putStatement table) (.array [key.toJson, .string value])

/-- Puts a text under a key that has none, and tells whether it did. -/
def add (key : Label) (value : String) : Action TableStore Bool := do
  let key ← Action.ofLabel key.unbroken
  let table ← Action.look (·.table)
  let wrap := Failure.statementFailed "add" key
  let n ← cursor wrap
  let reply ← execute wrap n (addStatement table) (.array [key.toJson, .string value])
  return reply.rowCount = 1

/-- Adds to the integer under a key and gives the sum.  The step is taken for an integer once there is a
connection. -/
def incrementBy (key : Label) (step : Json.Value) : Action TableStore Int := do
  let key ← Action.ofLabel key.unbroken
  let table ← Action.look (·.table)
  let wrap := Failure.statementFailed "increment" key
  let n ← cursor wrap
  let step ← Action.ofExcept step.toInteger
  let reply ← execute wrap n (incrementStatement table) (.array [.int step, key.toJson])
  if reply.rowCount = 0 then Action.fail (.counterMissing key)
  else
    let reply ← execute wrap n sumStatement .null
    let row ← fetch wrap reply
    let sum ← Action.ofExcept (column row)
    Action.ofExcept sum.toInteger

/-- Closes the connection in use; whether or not that succeeds, it is used no more. -/
def close : Action TableStore Unit := do
  match ← Action.look (·.held) with
  | none => return
  | some n =>
    let fault ← Action.step fun s =>
      let (fault, closes) := Server.next none s.server.closes
      (.ok fault, { s with
        held := none, server := { s.server with closes }, calls := .close n :: s.calls })
    match fault with
    | none => return
    | some e =>
      if e.isOfServer then
        Action.log .warning ("Closing counter store connection failed: " ++ e.text)
      else Action.fail (.driverFailed e.text)

/-- An action of another user of the store, who starts without a connection and leaves the connection in
use as it was. -/
def elsewhere {α : Type} (x : Action TableStore α) : Action TableStore α := fun s log =>
  let ((r, s'), log) := x { s with held := none } log
  (((r, { s' with held := s.held }) : Except Failure α × TableStore), log)

instance : CounterStore TableStore where
  get key := do
    match ← read key with
    | .null => return none
    | v => return some v.display
  set := put
  increment key step := incrementBy key (.int step)
  add := add
  close := close

end TableStore

end GeoWorkload
