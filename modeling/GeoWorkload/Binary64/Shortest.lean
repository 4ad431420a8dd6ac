import GeoWorkload.Binary64

/-!
# The shortest decimal of a binary64 number

`shortest` gives a positive number the decimal of the fewest digits among those that read back as
the number, and of these the nearest to it, an exact tie going to the even digit.  `text` writes it:
positionally from `0.0001` up to sixteen digits before the point and always with a digit after it,
otherwise with an exponent of a sign and at least two digits.
-/

namespace GeoWorkload.Binary64

/-- A decimal `digits · 10^exponent`. -/
structure Decimal where
  digits : Nat
  exponent : Int
deriving DecidableEq, Repr

/-- Twice the distances, in quarters of the last place, from `m · 2^e` to the ends of the interval
of reals that round to it: below it the spacing halves at a power of two. -/
def lowerGap (m : Nat) (e : Int) : Nat := if m = Nat.pow 2 52 ∧ -1074 < e then 1 else 2

/-- The point of the grid of step `10^k` that lies in the interval of `m · 2^e` nearest to the
number itself, or nothing where no point of the grid lies there.  All lengths are in a common unit,
in which the step is `step` and a quarter of the last place is `quarter`. -/
def gridPoint? (m : Nat) (e k : Int) : Option Nat :=
  let quarterExponent := e - 2
  let step := Nat.pow 10 k.toNat * Nat.pow 2 (-quarterExponent).toNat
  let quarter := Nat.pow 2 quarterExponent.toNat * Nat.pow 10 (-k).toNat
  let value := 4 * m * quarter
  let least := (4 * m - lowerGap m e) * quarter
  let greatest := (4 * m + 2) * quarter
  let inside (x : Nat) : Bool :=
    if m % 2 = 0 then least ≤ x && x ≤ greatest else least < x && x < greatest
  let below := value / step
  let above := below + 1
  match inside (below * step), inside (above * step) with
  | true, true =>
    let down := value - below * step
    let up := above * step - value
    some (if down < up then below else if up < down then above else below + below % 2)
  | true, false => some below
  | false, true => some above
  | false, false => none

/-- The coarsest grid from the step `10^k` downward that has a point in the interval, looking at
`steps` grids. -/
def searchGrids (m : Nat) (e : Int) : (steps : Nat) → (k : Int) → Decimal
  | 0, k => ⟨m, k⟩
  | steps + 1, k =>
    match gridPoint? m e k with
    | some digits => ⟨digits, k⟩
    | none => searchGrids m e steps (k - 1)

/-- A power of ten above `m · 2^e`: three decimal digits hold less than ten binary ones. -/
def decimalBound (m : Nat) (e : Int) : Int :=
  ((m.log2 + 1 + e) * 30103) / 100000 + 1

/-- The shortest decimal that reads back as the positive number `m · 2^e`. -/
def shortest (m : Nat) (e : Int) : Decimal :=
  searchGrids m e 24 (decimalBound m e)

/-- The exponent field: a sign and at least two digits. -/
def exponentText (e : Int) : String :=
  let digits := toString e.natAbs
  "e" ++ (if e < 0 then "-" else "+") ++ (if digits.length < 2 then "0" else "") ++ digits

/-- `n` zeros. -/
def zeros (n : Nat) : String := String.ofList (List.replicate n '0')

/-- A positive decimal in its written form. -/
def Decimal.text (d : Decimal) : String :=
  let digits := (toString d.digits).toList
  let point : Int := digits.length + d.exponent
  if -3 ≤ point ∧ point ≤ 16 then
    if point ≤ 0 then "0." ++ zeros (-point).toNat ++ String.ofList digits
    else if digits.length ≤ point.toNat then
      String.ofList digits ++ zeros (point.toNat - digits.length) ++ ".0"
    else
      String.ofList (digits.take point.toNat) ++ "." ++ String.ofList (digits.drop point.toNat)
  else
    let fraction := digits.drop 1
    String.ofList (digits.take 1) ++
      (if fraction.isEmpty then "" else "." ++ String.ofList fraction) ++ exponentText (point - 1)

/-- The written form of a number. -/
def text : Binary64 → String
  | .finite negative m e _ =>
    (if negative then "-" else "") ++ (if m = 0 then "0.0" else (shortest m e).text)
  | .infinite negative => if negative then "-inf" else "inf"
  | .nan => "nan"

end GeoWorkload.Binary64
