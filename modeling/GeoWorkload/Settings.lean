import GeoWorkload.Operation
import GeoWorkload.Sampling.Sampler

/-!
# Settings

What a workload is told about the documents, the windows, the distribution and the operations
(`Settings`).
-/

namespace GeoWorkload

/-- The settings of a workload.  `proportions` holds the operations with a positive weight, in order. -/
structure Settings where
  totalDocuments : Int := 13348
  records : Int := 1000000
  insertStart : Int := 0
  window : Window := .default
  distribution : Distribution := .uniform
  readsPolygon : Bool := true
  schemaName : Option String := none
  seed : Option Int := none
  proportions : List (Operation × Binary64) := []
deriving DecidableEq, Repr

namespace Settings

/-- The proportions under the names of the operations. -/
def namedProportions (s : Settings) : List (String × Binary64) :=
  s.proportions.map fun item => (item.1.name, item.2)

/-- The JSON object of the settings. -/
def toJson (s : Settings) : Json.Value :=
  .object [
    ("total_record_count", .int s.totalDocuments), ("record_count", .int s.records),
    ("insert_start", .int s.insertStart), ("window", s.window.toJson),
    ("distribution", .string s.distribution.name), ("read_polygon", .bool s.readsPolygon),
    ("schema_name", (s.schemaName.map .string).getD .null),
    ("seed", (s.seed.map .int).getD .null),
    ("proportions", .array (s.namedProportions.map fun (name, weight) =>
      .array [.string name, .float weight]))]

end Settings

end GeoWorkload
