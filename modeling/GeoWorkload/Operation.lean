/-!
# Operations

The six operations of a workload (`Operation`), with the names under which they are recorded and the
properties that set their proportions.
-/

namespace GeoWorkload

/-- An operation of a workload. -/
inductive Operation where
  | insert
  | update
  | near
  | box
  | intersect
  | scan
deriving DecidableEq, Repr

namespace Operation

/-- All operations, in the order in which a mix lists them. -/
def all : List Operation := [insert, update, near, box, intersect, scan]

theorem mem_all (op : Operation) : op ∈ all := by cases op <;> decide

/-- The name of an operation in records. -/
def name : Operation → String
  | insert => "GEO_INSERT"
  | update => "GEO_UPDATE"
  | near => "GEO_NEAR"
  | box => "GEO_BOX"
  | intersect => "GEO_INTERSECT"
  | scan => "GEO_SCAN"

/-- The property that sets the proportion of an operation. -/
def property : Operation → String
  | insert => "geo_insert"
  | update => "geo_update"
  | near => "geo_near"
  | box => "geo_box"
  | intersect => "geo_intersect"
  | scan => "geo_scan"

/-- The operation of a name. -/
def ofName? (s : String) : Option Operation := all.find? fun op => op.name = s

theorem ofName?_name (op : Operation) : ofName? op.name = some op := by cases op <;> decide

theorem ofName?_eq_some_iff {s : String} {op : Operation} : ofName? s = some op ↔ op.name = s := by
  constructor
  · intro h
    simpa using List.find?_some h
  · rintro rfl
    exact ofName?_name op

end Operation

end GeoWorkload
