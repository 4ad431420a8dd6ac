/-!
# Binary64 numbers

A binary64 number is a signed dyadic `± m · 2^e` with 53 bits of significand, an infinity or not a
number (`Binary64`); equality is equality of the written form, so the two zeros differ and a number
that is none equals itself.  Every rounding goes through `ofRatio`, which takes an exact quotient of
naturals to the nearest number, a half to the even significand, and beyond the greatest number to
an infinity.
-/

namespace GeoWorkload

/-- The significands and exponents that binary64 writes: at most 53 bits, the exponent in range, and
fewer than 53 bits only at the least exponent. -/
def Binary64.IsCanonical (m : Nat) (e : Int) : Prop :=
  m < Nat.pow 2 53 ∧ -1074 ≤ e ∧ e ≤ 971 ∧ (Nat.pow 2 52 ≤ m ∨ e = -1074)

instance (m : Nat) (e : Int) : Decidable (Binary64.IsCanonical m e) :=
  inferInstanceAs (Decidable (_ ∧ _))

/-- A binary64 number: `finite negative m e` is `m · 2^e`, or its negative. -/
inductive Binary64 where
  | finite (negative : Bool) (m : Nat) (e : Int) (canonical : Binary64.IsCanonical m e)
  | infinite (negative : Bool)
  | nan
deriving DecidableEq, Repr

namespace Binary64

/-- The zero of the given sign. -/
def zero (negative : Bool) : Binary64 :=
  .finite negative 0 (-1074) (by decide)

instance : Inhabited Binary64 := ⟨zero false⟩

/-- The quotient `n / d` to the nearest natural; a half goes to the even neighbour. -/
def roundHalfEven (n d : Nat) : Nat :=
  let q := n / d
  let r := n % d
  if 2 * r < d then q else if d < 2 * r then q + 1 else q + q % 2

/-- The exact quotient `n / d` in units of `2^e`, as a fraction. -/
def inUnits (n d : Nat) (e : Int) : Nat × Nat :=
  (n * Nat.pow 2 (-e).toNat, d * Nat.pow 2 e.toNat)

/-- The exponent of the unit in the last place around the positive quotient `n / d`: the one in
which its whole part has 53 bits, but never below the least exponent. -/
def lastPlace (n d : Nat) : Int :=
  let e := max ((n.log2 : Int) - d.log2 - 53) (-1074)
  let (n', d') := inUnits n d e
  if n' / d' < Nat.pow 2 53 then e else e + 1

/-- The number `m · 2^e` where `m` may have grown to `2^53`; an infinity beyond the greatest. -/
def ofParts (negative : Bool) (m : Nat) (e : Int) : Binary64 :=
  let (m, e) := if m = Nat.pow 2 53 then (Nat.pow 2 52, e + 1) else (m, e)
  if h : IsCanonical m e then .finite negative m e h else .infinite negative

/-- The number nearest to `n / d`, for positive `d`, with the given sign. -/
def ofRatio (negative : Bool) (n d : Nat) : Binary64 :=
  if n = 0 then zero negative
  else
    let e := lastPlace n d
    let (n', d') := inUnits n d e
    ofParts negative (roundHalfEven n' d') e

/-- The number nearest to `m · 2^e`. -/
def ofDyadic (negative : Bool) (m : Nat) (e : Int) : Binary64 :=
  ofRatio negative (m * Nat.pow 2 e.toNat) (Nat.pow 2 (-e).toNat)

/-- The number nearest to an integer. -/
def ofInt (z : Int) : Binary64 :=
  ofRatio (z < 0) z.natAbs 1

instance (n : Nat) : OfNat Binary64 n := ⟨ofInt n⟩

/-- The half, `2^-1`. -/
def half : Binary64 := ofDyadic false 1 (-1)

/-- Whether the number is neither an infinity nor not a number. -/
def isFinite : Binary64 → Bool
  | .finite .. => true
  | _ => false

/-- Whether the number is not a number. -/
def isNaN : Binary64 → Bool
  | .nan => true
  | _ => false

/-- The exact value of a finite number; zero for the others. -/
def toRat : Binary64 → Rat
  | .finite negative m e _ => (if negative then -1 else 1) * (m : Rat) * (2 : Rat) ^ e
  | _ => 0

/-- The whole part of a finite number, toward zero. -/
def truncate? : Binary64 → Option Int
  | .finite negative m e _ =>
    let whole : Int := (m * Nat.pow 2 e.toNat / Nat.pow 2 (-e).toNat : Nat)
    some (if negative then -whole else whole)
  | _ => none

/-- The greatest integer that is not above a finite number. -/
def floor? : Binary64 → Option Int
  | .finite negative m e _ =>
    let signed : Int := if negative then -(m : Int) else m
    some ((signed * Nat.pow 2 e.toNat) / Nat.pow 2 (-e).toNat)
  | _ => none

/-- The 64 bits of the number: sign, biased exponent, fraction. -/
def toBits : Binary64 → UInt64
  | .finite negative m e _ =>
    let magnitude := if m < Nat.pow 2 52 then m
      else (e + 1075).toNat * Nat.pow 2 52 + (m - Nat.pow 2 52)
    UInt64.ofNat (if negative then Nat.pow 2 63 + magnitude else magnitude)
  | .infinite negative => if negative then 0xfff0000000000000 else 0x7ff0000000000000
  | .nan => 0x7ff8000000000000

/-- The number that the 64 bits write. -/
def ofBits (bits : UInt64) : Binary64 :=
  let n := bits.toNat
  let negative := Nat.pow 2 63 ≤ n
  let biased : Nat := n / Nat.pow 2 52 % Nat.pow 2 11
  let fraction := n % Nat.pow 2 52
  if biased = 2047 then (if fraction = 0 then .infinite negative else .nan)
  else if biased = 0 then ofParts negative fraction (-1074)
  else ofParts negative (Nat.pow 2 52 + fraction) ((biased : Int) - 1075)

/-- Changes the sign. -/
def neg : Binary64 → Binary64
  | .finite negative m e h => .finite (!negative) m e h
  | .infinite negative => .infinite (!negative)
  | .nan => .nan

instance : Neg Binary64 := ⟨neg⟩

end Binary64

end GeoWorkload
