import GeoWorkload.Action
import GeoWorkload.Random.Source

/-!
# Zipfian draws

Draws from an interval whose least integer is the most popular, the popularity falling off as a power
law (`Zipfian`).  The two most popular integers are told apart by the draw itself and the others by a
closed formula, so that a draw takes one random number.
-/

namespace GeoWorkload

variable [Powers]

/-- The exponent of no special wishes, 0.99. -/
def defaultTheta : Binary64 := .ofRatio false 99 100

/-- The sum of `1 / i^theta` for `count` integers from `i` on, added to `total` one by one. -/
def zetaFrom (theta : Binary64) : (count i : Nat) → (total : Binary64) →
    Except NumberError Binary64
  | 0, _, total => .ok total
  | count + 1, i, total => do
    let power ← (← Binary64.ofInteger i).power theta
    let term ← Binary64.divide 1 power
    zetaFrom theta count (i + 1) (total + term)

/-- The generalised harmonic number: the sum of `1 / i^theta` for `i` from one to `n`. -/
def zeta (n : Int) (theta : Binary64) : Except NumberError Binary64 :=
  zetaFrom theta n.toNat 1 0

/-- The constants of zipfian draws from `items` integers from `base` on. -/
structure Zipfian where
  base : Int
  items : Nat
  theta : Binary64
  zetaN : Binary64
  zetaTwo : Binary64
  alpha : Binary64
  eta : Binary64
deriving DecidableEq, Repr

namespace Zipfian

/-- The greatest integer that may be drawn. -/
def greatest (z : Zipfian) : Int := z.base + z.items - 1

/-- The JSON object of the constants. -/
def toJson (z : Zipfian) : Json.Value :=
  .object [("base", .int z.base), ("items", .int z.items), ("max_value", .int z.greatest),
    ("zeta_n", .float z.zetaN), ("zeta_2", .float z.zetaTwo), ("alpha", .float z.alpha),
    ("eta", .float z.eta)]

/-- The constant of the closed formula; two items or fewer need none. -/
def etaOf (items : Nat) (theta zetaN zetaTwo : Binary64) : Except NumberError Binary64 :=
  if 2 < items then do
    let power ← (2 / (← Binary64.ofInteger items)).power (1 - theta)
    Binary64.divide (1 - power) (1 - (← Binary64.divide zetaTwo zetaN))
  else .ok 0

/-- The draws from the integers from `least` to `greatest`, for an exponent strictly between zero and
one. -/
def ofRange (least greatest : Int) (theta : Binary64) : Except Failure Zipfian :=
  if greatest < least then .error (.zipfianRangeEmpty least greatest)
  else if !(theta.isPositive && theta.lt 1) then .error (.thetaOutOfRange theta)
  else
    let items := (greatest - least + 1).toNat
    let constants : Except NumberError Zipfian := do
      let zetaN ← zeta items theta
      let zetaTwo ← zeta 2 theta
      let alpha ← Binary64.divide 1 (1 - theta)
      let eta ← etaOf items theta zetaN zetaTwo
      return ⟨least, items, theta, zetaN, zetaTwo, alpha, eta⟩
    constants.mapError .number

/-- The distance from the base to the integer that the number `u` draws. -/
def offsetOf (z : Zipfian) (u : Binary64) : Except NumberError Int := do
  let uz := u * z.zetaN
  if uz.lt 1 then return 0
  else if uz.lt (1 + (← Binary64.half.power z.theta)) then return 1
  else
    let power ← (z.eta * u - z.eta + 1).power z.alpha
    let offset ← (Binary64.ofInt z.items * power).toInteger
    return min offset (z.items - 1)

/-- The next integer; a single item takes no random number. -/
def next (z : Zipfian) (s : RandomSource) : Except NumberError Int × RandomSource :=
  if z.items = 1 then (.ok z.base, s)
  else
    let (u, s) := s.unit
    ((z.offsetOf u).map (z.base + ·), s)

end Zipfian

end GeoWorkload
