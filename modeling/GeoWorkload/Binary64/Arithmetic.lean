import GeoWorkload.Binary64

/-!
# Binary64 arithmetic

Sum, difference, product and quotient of binary64 numbers, each the nearest number to the exact
result, and their order (`lt`, `le`), in which the two zeros are equal and what is not a number
stands nowhere.
-/

namespace GeoWorkload.Binary64

/-- A signed dyadic `z · 2^e` to the nearest number; an exact zero takes the sign `zeroSign`. -/
def ofSigned (z : Int) (e : Int) (zeroSign : Bool) : Binary64 :=
  if z = 0 then zero zeroSign else ofDyadic (z < 0) z.natAbs e

/-- The significand with its sign, in units of `2^unit`, for a unit not above the exponent. -/
def signedIn (negative : Bool) (m : Nat) (e unit : Int) : Int :=
  let scaled : Int := (m * Nat.pow 2 (e - unit).toNat : Nat)
  if negative then -scaled else scaled

/-- The sum; opposite infinities have none, and a zero sum is negative only for two negative
zeros. -/
def add : Binary64 → Binary64 → Binary64
  | .nan, _ => .nan
  | _, .nan => .nan
  | .infinite s, .infinite t => if s = t then .infinite s else .nan
  | .infinite s, .finite .. => .infinite s
  | .finite .., .infinite t => .infinite t
  | .finite s m e _, .finite t n f _ =>
    let unit := min e f
    ofSigned (signedIn s m e unit + signedIn t n f unit) unit (s && t)

/-- The difference. -/
def sub (x y : Binary64) : Binary64 := add x y.neg

/-- The product; a zero times an infinity has none. -/
def mul : Binary64 → Binary64 → Binary64
  | .nan, _ => .nan
  | _, .nan => .nan
  | .infinite s, .infinite t => .infinite (s != t)
  | .infinite s, .finite t n _ _ => if n = 0 then .nan else .infinite (s != t)
  | .finite s m _ _, .infinite t => if m = 0 then .nan else .infinite (s != t)
  | .finite s m e _, .finite t n f _ => ofDyadic (s != t) (m * n) (e + f)

/-- The quotient; a finite number over zero is an infinity, and zero over zero has none. -/
def div : Binary64 → Binary64 → Binary64
  | .nan, _ => .nan
  | _, .nan => .nan
  | .infinite _, .infinite _ => .nan
  | .infinite s, .finite t .. => .infinite (s != t)
  | .finite s .., .infinite t => zero (s != t)
  | .finite s m e _, .finite t n f _ =>
    if n = 0 then (if m = 0 then .nan else .infinite (s != t))
    else
      let shift := e - f
      ofRatio (s != t) (m * Nat.pow 2 shift.toNat) (n * Nat.pow 2 (-shift).toNat)

instance : Add Binary64 := ⟨add⟩
instance : Sub Binary64 := ⟨sub⟩
instance : Mul Binary64 := ⟨mul⟩
instance : Div Binary64 := ⟨div⟩

/-- Whether the first number lies strictly below the second. -/
def lt : Binary64 → Binary64 → Bool
  | .nan, _ => false
  | _, .nan => false
  | .infinite s, .infinite t => s && !t
  | .infinite s, .finite .. => s
  | .finite .., .infinite t => !t
  | .finite s m e _, .finite t n f _ =>
    let unit := min e f
    signedIn s m e unit < signedIn t n f unit

/-- Whether the two numbers are equal in value. -/
def eq (x y : Binary64) : Bool :=
  !x.isNaN && !y.isNaN && !x.lt y && !y.lt x

/-- Whether the first number lies below or at the second. -/
def le (x y : Binary64) : Bool := x.lt y || x.eq y

/-- Whether the number lies between two others, whichever of these is the greater one. -/
def liesBetween (x y z : Binary64) : Bool := y.le x && x.le z || z.le x && x.le y

/-- Whether the number lies strictly above zero. -/
def isPositive (x : Binary64) : Bool := (zero false).lt x

/-- Whether the number lies strictly below zero. -/
def isNegative (x : Binary64) : Bool := x.lt (zero false)

/-- The correctly rounded quotient of two integers, for a positive divisor; nothing where it lies
beyond the greatest number. -/
def ofQuotient? (n : Int) (d : Nat) : Option Binary64 :=
  let q := ofRatio (n < 0) n.natAbs d
  if q.isFinite then some q else none

/-- The number nearest to an integer; nothing where it lies beyond the greatest number. -/
def ofInt? (z : Int) : Option Binary64 :=
  let x := ofInt z
  if x.isFinite then some x else none

end GeoWorkload.Binary64
