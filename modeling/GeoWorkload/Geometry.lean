import GeoWorkload.Binary64.Arithmetic
import GeoWorkload.Json.Value
import GeoWorkload.Random.Source

/-!
# Synthetic shapes

Points, pairs of lines and quadrilaterals at random places of a window about one degree wide
(`Shape`), west and north of its corner, and their records (`Shape.toJson`).
-/

namespace GeoWorkload

/-- A place: longitude and latitude. -/
structure Coordinate where
  lon : Binary64
  lat : Binary64
deriving DecidableEq, Repr

namespace Coordinate

/-- The longitude of the corner. -/
def lonOrigin : Binary64 := .ofInt (-111)

/-- The latitude of the corner. -/
def latOrigin : Binary64 := .ofInt 33

/-- A longitude up to a degree west of the corner. -/
def jitterLon (s : RandomSource) : Binary64 × RandomSource :=
  let (u, s) := s.unit
  (lonOrigin - u, s)

/-- A latitude up to a degree north of the corner. -/
def jitterLat (s : RandomSource) : Binary64 × RandomSource :=
  let (u, s) := s.unit
  (latOrigin + u, s)

/-- A place of the window. -/
def jitter (s : RandomSource) : Coordinate × RandomSource :=
  let (lon, s) := jitterLon s
  let (lat, s) := jitterLat s
  (⟨lon, lat⟩, s)

/-- The record of a place. -/
def toJson (c : Coordinate) : Json.Value := .array [.float c.lon, .float c.lat]

end Coordinate

/-- A shape. -/
inductive Shape where
  | point (place : Coordinate)
  | lines (lines : List (List Coordinate))
  | polygon (rings : List (List Coordinate))
deriving DecidableEq, Repr

namespace Shape

/-- A random point. -/
def synthPoint (s : RandomSource) : Shape × RandomSource :=
  let (c, s) := Coordinate.jitter s
  (.point c, s)

/-- Two random lines of two places each. -/
def synthLines (s : RandomSource) : Shape × RandomSource :=
  let (a, s) := Coordinate.jitter s
  let (b, s) := Coordinate.jitter s
  let (c, s) := Coordinate.jitter s
  let (d, s) := Coordinate.jitter s
  (.lines [[a, b], [c, d]], s)

/-- A random closed quadrilateral: the second corner shares the latitude of the first, and the fourth
takes the longitude of the first and the latitude of the third. -/
def synthPolygon (s : RandomSource) : Shape × RandomSource :=
  let (start, s) := Coordinate.jitter s
  let (lon, s) := Coordinate.jitterLon s
  let second : Coordinate := ⟨lon, start.lat⟩
  let (third, s) := Coordinate.jitter s
  let fourth : Coordinate := ⟨start.lon, third.lat⟩
  (.polygon [[start, second, third, fourth, start]], s)

/-- The places of a shape. -/
def vertices : Shape → List Coordinate
  | point c => [c]
  | lines ls => ls.flatten
  | polygon rs => rs.flatten

/-- The record of a list of paths. -/
def pathsToJson (paths : List (List Coordinate)) : Json.Value :=
  .array (paths.map fun path => .array (path.map Coordinate.toJson))

/-- The members of a record of the given kind. -/
def record (kind : String) (coordinates : Json.Value) : Json.Members :=
  [("type", .string kind), ("coordinates", coordinates)]

/-- The members of the record of a shape. -/
def toMembers : Shape → Json.Members
  | point c => record "Point" c.toJson
  | lines ls => record "MultiLineString" (pathsToJson ls)
  | polygon rs => record "Polygon" (pathsToJson rs)

/-- The record of a shape. -/
def toJson (shape : Shape) : Json.Value := .object shape.toMembers

end Shape

end GeoWorkload
