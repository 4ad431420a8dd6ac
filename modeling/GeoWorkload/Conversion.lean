import GeoWorkload.Failure
import GeoWorkload.Json.Value
import GeoWorkload.Text.Blank

/-!
# Values as integers

Where an integer is wanted and a JSON value is given: a number loses its fraction, a text is read, and
nothing else will do (`Json.Value.toInteger`).
-/

namespace GeoWorkload.Json.Value

/-- The integer that a value is taken for. -/
def toInteger : Value → Except Failure Int
  | int z => .ok z
  | bool b => .ok (if b then 1 else 0)
  | float x => x.toInteger.mapError .number
  | string s => (Numeral.readInteger s).mapError .notInteger
  | _ => .error .wrongKind

end GeoWorkload.Json.Value
