import GeoWorkload.Json.Display

/-!
# Database servers

What a database server answers to a client, in the order of the client's calls (`Server`), and the calls
that the client makes (`ServerCall`).  Beyond what is listed every call succeeds.
-/

namespace GeoWorkload

/-- An error that a call of a client ends with, and what it carries.  Either the client reports it of the
server, or it comes from elsewhere. -/
structure DriverError where
  isOfServer : Bool := true
  details : List Json.Value
deriving DecidableEq, Repr

namespace DriverError

/-- The kinds of errors that a client reports of its server. -/
def serverKinds : List String := ["MySQLError", "Warning", "Error", "InterfaceError", "DatabaseError",
  "DataError", "OperationalError", "IntegrityError", "InternalError", "ProgrammingError",
  "NotSupportedError"]

/-- The error of a kind. -/
def ofKind (kind : String) (details : List Json.Value) : DriverError :=
  ⟨serverKinds.contains kind, details⟩

/-- The wording of an error: nothing, its one detail, or the list of its details. -/
def text (e : DriverError) : String :=
  match e.details with
  | [] => ""
  | [v] => v.display
  | details => "(" ++ String.intercalate ", " (details.map (·.quoted)) ++ ")"

end DriverError

/-- What a statement gives: the number of rows it touched and its first row, null for none. -/
structure Reply where
  rowCount : Int := 0
  row : Json.Value := .null
deriving DecidableEq, Repr

/-- What becomes of an attempt to connect. -/
inductive ConnectOutcome where
  | connected
  /-- No connection is made. -/
  | refused (error : DriverError)
  /-- A connection is made, but its database cannot be selected. -/
  | notSelected (error : DriverError)
deriving DecidableEq, Repr

/-- The answers of a server to come. -/
structure Server where
  connects : List ConnectOutcome := []
  cursors : List (Option DriverError) := []
  statements : List (Except DriverError Reply) := []
  rows : List (Option DriverError) := []
  closes : List (Option DriverError) := []

namespace Server

/-- The next answer of a list, and the default where it is used up. -/
def next {α : Type} (default : α) : List α → α × List α
  | [] => (default, [])
  | a :: rest => (a, rest)

end Server

/-- A call of a client; connections are numbered from zero in the order in which they were made. -/
inductive ServerCall where
  | connect (parameters : Json.Members)
  | selectDatabase (connection : Nat) (database : Json.Value)
  | execute (connection : Nat) (statement : String) (parameters : Json.Value)
  | close (connection : Nat)
deriving DecidableEq, Repr

/-- The JSON array that lists what a call is and what it says. -/
def ServerCall.toJson : ServerCall → Json.Value
  | connect parameters => .array [.string "connect", .object parameters]
  | selectDatabase _ database => .array [.string "select_db", database]
  | execute _ statement parameters => .array [.string "execute", .string statement, parameters]
  | close _ => .array [.string "close"]

end GeoWorkload
