import GeoWorkload.Binary64.Checked
import GeoWorkload.Json.Printer
import GeoWorkload.Operation
import GeoWorkload.Predicate

/-!
# Requests

What an operation asks of a store of documents (`Request`), its JSON object, and how the store answers
(`Status`).
-/

namespace GeoWorkload

/-- The answer to a request. -/
inductive Status where
  | ok
  | error
  | notFound
  | notImplemented
deriving DecidableEq, Repr

namespace Status

/-- The name of a status. -/
def name : Status → String
  | ok => "OK"
  | error => "ERROR"
  | notFound => "NOT_FOUND"
  | notImplemented => "NOT_IMPLEMENTED"

/-- Whether the request was carried out. -/
def isOk (s : Status) : Bool := s = ok

end Status

/-- A request on a table: one that carries a predicate, or a scan. -/
inductive Request where
  | predicate (op : Operation) (table : Json.Value) (predicate : Predicate)
  | scan (table : Json.Value) (startKey : String) (limit offset : Int)
deriving DecidableEq, Repr

namespace Request

/-- The operation that asks. -/
def operation : Request → Operation
  | predicate op .. => op
  | scan .. => .scan

/-- The JSON object of a request. -/
def toJson : Request → Json.Value
  | predicate op table p =>
    .object [("op", .string op.name), ("table", table), ("predicate", p.toJson)]
  | scan table startKey limit offset =>
    .object [("op", .string Operation.scan.name), ("table", table),
      ("startKey", .string startKey), ("limit", .int limit), ("offset", .int offset)]

/-- Whether no integer of a request is too long to be written. -/
def isWritable (r : Request) : Bool := r.toJson.isWritable

theorem isWritable_predicate (op : Operation) (table : Json.Value) (p : Predicate) :
    (predicate op table p).isWritable = (table.isWritable && p.toJson.isWritable) := by
  simp [isWritable, toJson, Json.Value.isWritable, Json.Value.membersWritable, Json.Value.memberWritable_eq]

theorem isWritable_scan (table : Json.Value) (startKey : String) (limit offset : Int) :
    (scan table startKey limit offset).isWritable =
      (table.isWritable && (decide (Numeral.IsWritable limit) && decide (Numeral.IsWritable offset))) := by
  simp [isWritable, toJson, Json.Value.isWritable, Json.Value.membersWritable, Json.Value.memberWritable_eq]

/-- The text that writes a request. -/
def line (r : Request) : String := r.toJson.compactText

/-- The line of a request, unless it holds an integer that is too long to be written. -/
def line? (r : Request) : Except NumberError String :=
  if r.isWritable then .ok r.line else .error .unwritable

theorem line?_of_isWritable {r : Request} (h : r.isWritable = true) : r.line? = .ok r.line := by
  simp [line?, h]

theorem line?_of_not_isWritable {r : Request} (h : ¬ r.isWritable = true) : r.line? = .error .unwritable := by
  simp [line?, h]

end Request

end GeoWorkload
