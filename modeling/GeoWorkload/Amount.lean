import GeoWorkload.Binary64.Checked
import GeoWorkload.Json.Value

/-!
# Amounts

A number that is given as a JSON value, whole or not (`Amount`): a truth value counts as zero or one.
-/

namespace GeoWorkload

/-- A number, whole or not. -/
inductive Amount where
  | whole (z : Int)
  | real (x : Binary64)
deriving DecidableEq, Repr

namespace Amount

/-- The amount that a value gives, if it gives one. -/
def ofValue? : Json.Value → Option Amount
  | .int z => some (whole z)
  | .bool b => some (whole (if b then 1 else 0))
  | .float x => some (real x)
  | _ => none

/-- Whether the amount lies below an integer. -/
def isBelow (a : Amount) (z : Int) : Bool :=
  match a with
  | whole n => n < z
  | real x => x.lt (.ofInt z)

/-- Whether an integer lies below the amount. -/
def isAbove (a : Amount) (z : Int) : Bool :=
  match a with
  | whole n => z < n
  | real x => (Binary64.ofInt z).lt x

/-- Whether the amount is zero. -/
def isZero : Amount → Bool
  | whole n => n = 0
  | real x => x.eq 0

/-- The decimal of the whole part; an infinity has none. -/
def wholeText? : Amount → Option String
  | whole n => some (Numeral.decimal n)
  | real x => x.truncate?.map Numeral.decimal

/-- The number nearest to the amount. -/
def toReal : Amount → Except NumberError Binary64
  | whole n => Binary64.ofInteger n
  | real x => .ok x

/-- The sum of two amounts, whole if both are. -/
def add : Amount → Amount → Except NumberError Amount
  | whole m, whole n => .ok (whole (m + n))
  | a, b => do return real ((← a.toReal) + (← b.toReal))

/-- The value that gives the amount. -/
def toValue : Amount → Json.Value
  | whole n => .int n
  | real x => .float x

/-- Whether an amount is at most another. -/
def isAtMost : Amount → Amount → Bool
  | whole m, whole n => m ≤ n
  | whole m, real y => (Binary64.ofInt m).le y
  | real x, whole n => x.le (.ofInt n)
  | real x, real y => x.le y

/-- The amount as a whole number wherever it has no fraction. -/
def reduced : Amount → Amount
  | whole n => whole n
  | real x => if x.isWhole then whole (x.truncate?.getD 0) else real x

/-- The least integer that is not below the amount, if there is one. -/
def ceiling? : Amount → Option Int
  | whole n => some n
  | real x => (x.neg.floor?).map (-·)

/-- The smaller of an amount and an integer; the amount where neither lies below the other. -/
def minWith (a : Amount) (z : Int) : Amount := if a.isAbove z then whole z else a

end Amount

end GeoWorkload
