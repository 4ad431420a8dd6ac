import GeoWorkload.Binary64.Checked
import GeoWorkload.Random.Twister

/-!
# Random sources

A random source is a twister or a script of draws that starts again at its end (`RandomSource`).  Both
give numbers below one (`unit`), integers below a bound (`below`) and integers of an interval
(`between`).
-/

namespace GeoWorkload

/-- Where random numbers come from. -/
inductive RandomSource where
  | twister (state : Twister)
  | script (draws : Array Binary64) (next : Nat)
deriving DecidableEq, Repr

namespace RandomSource

/-- The source of a seed. -/
def ofSeed (seed : Int) : RandomSource := .twister (.ofSeed seed)

/-- The source that gives the listed draws in turn. -/
def ofDraws (draws : List Binary64) : RandomSource := .script draws.toArray 0

/-- The next number, for a twister one from zero to below one. -/
def unit : RandomSource → Binary64 × RandomSource
  | .twister t =>
    let (u, t) := t.unit
    (u, .twister t)
  | .script draws i =>
    (draws.getD i 0, .script draws (if i + 1 < draws.size then i + 1 else 0))

/-- The whole part of a draw times a bound. -/
def scaled (u : Binary64) (n : Int) : Except NumberError Int := do
  (u * (← Binary64.ofInteger n)).toInteger

/-- An integer from zero to below the positive `n`. -/
def below (n : Int) : RandomSource → Except NumberError Int × RandomSource
  | .twister t =>
    let (r, t) := t.below n.toNat
    (.ok r, .twister t)
  | s =>
    let (u, s) := s.unit
    (scaled u n, s)

/-- An integer from `a` to `b`, for `a` not above `b`. -/
def between (a b : Int) (s : RandomSource) : Except NumberError Int × RandomSource :=
  let (r, s) := s.below (b - a + 1)
  (r.map (a + ·), s)

end RandomSource

end GeoWorkload
