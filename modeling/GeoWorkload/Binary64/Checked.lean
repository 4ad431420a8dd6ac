import GeoWorkload.Binary64.Arithmetic
import GeoWorkload.Numeral.Integer

/-!
# Checked arithmetic

Operations that fail where the plain ones would leave the numbers they started from: conversions
between integers and binary64 (`ofInteger`, `toInteger`), quotients (`divide`, `ratio`) and powers
(`power`).  `NumberError` names the ways in which they fail.  The powers themselves are not a matter of rounding an
exact result, as the rest of arithmetic is: every platform has its own (`Powers`).
-/

namespace GeoWorkload

/-- Why an operation on numbers fails. -/
inductive NumberError where
  /-- The integer has too many digits to be written. -/
  | unwritable
  /-- The integer lies beyond the greatest binary64 number. -/
  | integerTooLarge
  /-- The quotient of integers lies beyond the greatest binary64 number. -/
  | ratioTooLarge
  /-- The power lies beyond the greatest binary64 number. -/
  | powerTooLarge
  /-- The divisor is zero. -/
  | divisionByZero
  /-- The base is zero and the exponent negative. -/
  | zeroToNegative
  /-- The power is not real. -/
  | complexPower
  /-- An infinity is no integer. -/
  | infiniteInteger
  /-- What is not a number is no integer. -/
  | nanInteger
deriving DecidableEq, Repr

/-- The wording of a number error. -/
def NumberError.message : NumberError → String
  | unwritable => Numeral.TooLong.message {}
  | integerTooLarge => "int too large to convert to float"
  | ratioTooLarge => "integer division result too large for a float"
  | powerTooLarge => "(34, 'Numerical result out of range')"
  | divisionByZero => "float division by zero"
  | zeroToNegative => "0.0 cannot be raised to a negative power"
  | complexPower =>
    "int() argument must be a string, a bytes-like object or a real number, not 'complex'"
  | infiniteInteger => "cannot convert float infinity to integer"
  | nanInteger => "cannot convert float NaN to integer"

/-- The decimal form of an integer, refused where it is too long. -/
def Numeral.writeInteger (z : Int) : Except NumberError String :=
  (Numeral.decimal? z).mapError fun _ => .unwritable

/-- The powers of a platform: `raise x y` is what it takes for `x` to the power of `y`. -/
class Powers where
  raise : Binary64 → Binary64 → Binary64

/-- The powers of the platform that the program runs on. -/
instance Powers.platform : Powers where
  raise x y := .ofBits (Float.pow (Float.ofBits x.toBits) (Float.ofBits y.toBits)).toBits

namespace Binary64

/-- The nearest number to an integer. -/
def ofInteger (z : Int) : Except NumberError Binary64 :=
  match ofInt? z with
  | some x => .ok x
  | none => .error .integerTooLarge

/-- The whole part of a number, toward zero. -/
def toInteger : Binary64 → Except NumberError Int
  | .nan => .error .nanInteger
  | .infinite _ => .error .infiniteInteger
  | x => .ok (x.truncate?.getD 0)

/-- The correctly rounded quotient of two integers with a positive divisor. -/
def ratio (n : Int) (d : Nat) : Except NumberError Binary64 :=
  match ofQuotient? n d with
  | some x => .ok x
  | none => .error .ratioTooLarge

/-- The quotient of two numbers. -/
def divide (x y : Binary64) : Except NumberError Binary64 :=
  if y.eq 0 then .error .divisionByZero else .ok (x / y)

/-- Whether a number is finite and has no fraction. -/
def isWhole (x : Binary64) : Bool :=
  match x.truncate? with
  | some z => (ofInt z).eq x
  | none => false

/-- The power of two numbers. -/
def power [Powers] (x y : Binary64) : Except NumberError Binary64 :=
  if x.eq 0 && y.isNegative then .error .zeroToNegative
  else if x.isFinite && x.isNegative && y.isFinite && !y.isWhole then .error .complexPower
  else
    match x.isFinite && y.isFinite, Powers.raise x y with
    | true, .infinite _ => .error .powerTooLarge
    | _, z => .ok z

end Binary64

/-- The power of a positive number to a positive exponent of at most one lies between the number and one.  The exact
power does, so that one within a unit in the last place of it does as well. -/
def Powers.Moderate [Powers] : Prop :=
  ∀ x y : Binary64, x.isFinite = true → x.isPositive = true → y.isPositive = true → y.le 1 = true →
    (raise x y).liesBetween x 1 = true

end GeoWorkload
