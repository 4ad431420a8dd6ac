import GeoWorkload.Action
import GeoWorkload.Random.Source

/-!
# Query windows

The bounds of the limits and the offsets of windowed reads (`Window`), each pair in ascending order
whichever way round it was given (`Window.ofBounds`), and the draws from them.
-/

namespace GeoWorkload

/-- The bounds of limits and offsets, each pair in ascending order. -/
structure Window where
  limitMin : Int
  limitMax : Int
  offsetMin : Int
  offsetMax : Int
  limit_le : limitMin ≤ limitMax := by omega
  offset_le : offsetMin ≤ offsetMax := by omega
deriving DecidableEq, Repr

namespace Window

/-- The window between two limits and two offsets. -/
def ofBounds (limit limit' offset offset' : Int) : Window where
  limitMin := min limit limit'
  limitMax := max limit limit'
  offsetMin := min offset offset'
  offsetMax := max offset offset'

/-- The JSON array of the bounds. -/
def toJson (w : Window) : Json.Value :=
  .array ([w.limitMin, w.limitMax, w.offsetMin, w.offsetMax].map .int)

/-- The window of no special wishes. -/
def default : Window := ofBounds 10 100 10 100

instance : Inhabited Window := ⟨default⟩

/-- An integer of an interval; a single point takes no draw. -/
def draw (least greatest : Int) (s : RandomSource) : Except NumberError Int × RandomSource :=
  if least = greatest then (.ok greatest, s) else s.between least greatest

/-- A limit. -/
def drawLimit (w : Window) (s : RandomSource) : Except NumberError Int × RandomSource :=
  draw w.limitMin w.limitMax s

/-- An offset. -/
def drawOffset (w : Window) (s : RandomSource) : Except NumberError Int × RandomSource :=
  draw w.offsetMin w.offsetMax s

end Window

end GeoWorkload
