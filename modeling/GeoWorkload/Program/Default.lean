import GeoWorkload.Json.Value

/-!
# The default configuration

What a run goes by where no configuration file is named.
-/

namespace GeoWorkload.DefaultConfiguration

/-- Where the default configuration is said to stand. -/
def path : String := "config/geo_config.json"

/-- The proportion `n` hundredths. -/
def hundredths (n : Nat) : Json.Value := .float (.ofRatio false n 100)

/-- The section of the counter store. -/
def counterStore : Json.Members := [
  ("backend", .string "memory"), ("host", .string "127.0.0.1"), ("port", .int 3306),
  ("user", .string "root"), ("password", .string ""), ("socket", .null),
  ("database", .string "geoload"), ("table", .string "geo_counters")]

/-- The section of running. -/
def run : Json.Members := [
  ("workers", .int 4), ("operations", .int 1000), ("duration_seconds", .null),
  ("output", .string "traces/geo_trace.jsonl")]

/-- The properties of the workload. -/
def workload : Json.Members := [
  ("totalrecordcount", .int 6), ("recordcount", .int 18), ("insertstart", .int 0),
  ("geo_querylimit_min", .int 10), ("geo_querylimit_max", .int 100),
  ("geo_offset_min", .int 10), ("geo_offset_max", .int 100),
  ("geo_request_distribution", .string "uniform"), ("geo_read_polygon", .bool true),
  ("geo_schema", .string "incidents"), ("geo_insert", hundredths 20),
  ("geo_update", hundredths 20), ("geo_near", hundredths 20), ("geo_box", hundredths 15),
  ("geo_intersect", hundredths 15), ("geo_scan", hundredths 10)]

/-- The members of the default configuration. -/
def members : Json.Members := [
  ("counter_store", .object counterStore),
  ("load", .object [("corpus", .string "data/incidents_sample.geojson")]),
  ("run", .object run), ("workload", .object workload)]

end GeoWorkload.DefaultConfiguration
