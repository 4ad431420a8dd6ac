import GeoWorkload.Binary64
import GeoWorkload.Numeral.Integer

/-!
# Binary64 numbers in texts

A decimal is taken to the nearest binary64 number (`Binary64.ofDecimal`).  `readReal` reads one from
a text that blanks may surround, with an optional sign, fraction and exponent, the digits of any
script and single underscores between digits; the words for an infinity and for what is not a
number may have either case.
-/

namespace GeoWorkload

/-- The number nearest to `digits · 10^exponent`.  Exponents that are certainly beyond both ends of
the range are not worked out. -/
def Binary64.ofDecimal (negative : Bool) (digits : Nat) (exponent : Int) : Binary64 :=
  if digits = 0 then zero negative
  else if 400 < exponent then .infinite negative
  else if exponent + digits.log2 / 3 + 1 < -400 then zero negative
  else ofRatio negative (digits * Nat.pow 10 exponent.toNat) (Nat.pow 10 (-exponent).toNat)

namespace Numeral

/-- The text is no number. -/
structure RealFault where
  text : String
deriving DecidableEq, Repr

/-- What is said of a text that is no number. -/
def RealFault.message (fault : RealFault) : String :=
  "could not convert string to float: " ++ Text.quoted fault.text

/-- Digits of all scripts become ASCII ones. -/
def toAsciiDigit (c : Char) : Char :=
  match Text.digitValue? c with
  | some d => Text.hexDigit d
  | none => c

/-- Removes the underscores, each of which has to stand between two ASCII digits; `previous` is the
character before. -/
def dropUnderscores : (previous : Char) → List Char → Option (List Char)
  | previous, [] => if previous = '_' then none else some []
  | previous, c :: rest =>
    if c = '_' then (if previous.isDigit then dropUnderscores c rest else none)
    else if previous = '_' ∧ ¬ c.isDigit then none
    else (dropUnderscores c rest).map (c :: ·)

/-- The ASCII digits at the start of a text, as values, and what follows them. -/
def spanDigits (s : List Char) : List Nat × List Char :=
  ((s.takeWhile Char.isDigit).map fun c => c.toNat - 48, s.dropWhile Char.isDigit)

/-- The value of the exponent field at the start of a text and what follows it; nothing where no whole
field stands there. -/
def readExponent? : List Char → Option (Int × List Char)
  | [] => none
  | e :: s =>
    if e = 'e' ∨ e = 'E' then
      let (negative, s) := splitSign s
      let (digits, rest) := spanDigits s
      if digits.isEmpty then none
      else some (if negative then -(ofDigits digits : Int) else ofDigits digits, rest)
    else none

/-- Reads an unsigned decimal that makes up the whole text. -/
def readDecimal? (negative : Bool) (s : List Char) : Option Binary64 :=
  let (whole, s) := spanDigits s
  let (fraction, s) := match s with
    | '.' :: rest => spanDigits rest
    | _ => ([], s)
  if whole.isEmpty ∧ fraction.isEmpty then none
  else
    let (exponent, rest) := (readExponent? s).getD (0, s)
    if rest.isEmpty then
      some (.ofDecimal negative (ofDigits (whole ++ fraction)) (exponent - fraction.length))
    else none

/-- The number that a text writes. -/
def readReal (text : String) : Except RealFault Binary64 :=
  let trimmed := ((text.toList.dropWhile Text.isNumeralBlank).reverse.dropWhile
    Text.isNumeralBlank).reverse.map toAsciiDigit
  match dropUnderscores ' ' trimmed with
  | none => .error ⟨text⟩
  | some s =>
    let (negative, s) := splitSign s
    let word := String.ofList (s.map Char.toLower)
    if word = "inf" ∨ word = "infinity" then .ok (.infinite negative)
    else if word = "nan" then .ok .nan
    else match readDecimal? negative s with
      | some x => .ok x
      | none => .error ⟨text⟩

end Numeral

end GeoWorkload
