import GeoWorkload.Text.Blank
import GeoWorkload.Text.Digit
import GeoWorkload.Text.Quoted

/-!
# Integers in texts

An integer is written in ASCII digits, at most `maxDigits` of them (`decimal?`).  It is read from
more: blanks may surround it, a plus or a minus may precede it, its digits may be those of any
script, and single underscores may stand between them (`readInteger`).
-/

namespace GeoWorkload.Numeral

/-- The number of digits beyond which an integer is neither read nor written. -/
def maxDigits : Nat := 4300

/-- The integer is too long to be written. -/
structure TooLong where
deriving DecidableEq, Repr

/-- What is said of an integer that is too long to be written. -/
def TooLong.message (_ : TooLong) : String :=
  "Exceeds the limit (4300 digits) for integer string conversion; " ++
    "use sys.set_int_max_str_digits() to increase the limit"

/-- Whether the integer has no more digits than may be written. -/
def IsWritable (z : Int) : Prop := z.natAbs < Nat.pow 10 maxDigits

instance (z : Int) : Decidable (IsWritable z) := inferInstanceAs (Decidable (_ < _))

/-- The decimal form of an integer: a minus for a negative one, no leading zeros. -/
def decimal (z : Int) : String := toString z

/-- The decimal form of an integer that is not too long. -/
def decimal? (z : Int) : Except TooLong String :=
  if IsWritable z then .ok (decimal z) else .error {}

/-- The decimal form of an integer with zeros after its sign up to a width. -/
def padded (width : Nat) (z : Int) : String :=
  let sign := if z < 0 then ['-'] else []
  let digits := (toString z.natAbs).toList
  String.ofList (sign ++ List.replicate (width - sign.length - digits.length) '0' ++ digits)

/-- Why a text is no integer. -/
inductive IntegerFault where
  /-- The text does not follow the grammar. -/
  | malformed (text : String)
  /-- The text has more digits than are read. -/
  | tooManyDigits (count : Nat)
deriving DecidableEq, Repr

/-- What is said of integer texts with too many digits. -/
def tooManyDigitsMessage (count : Nat) : String :=
  "Exceeds the limit (4300 digits) for integer string conversion: value has " ++ toString count ++
    " digits; use sys.set_int_max_str_digits() to increase the limit"

/-- What is said of a text that is no integer; of a malformed one, its quoted form is cut after two
hundred characters. -/
def IntegerFault.message : IntegerFault → String
  | .malformed text =>
    "invalid literal for int() with base 10: " ++
      String.ofList ((Text.quoted text).toList.take 200)
  | .tooManyDigits count => tooManyDigitsMessage count

/-- The natural that a list of digits writes, the most significant first. -/
def ofDigits (digits : List Nat) : Nat := digits.foldl (fun n d => 10 * n + d) 0

/-- The digits at the start of a text and what follows them.  An underscore may stand between two
digits; `gap` says that none may stand here, and nothing is read where one stands elsewhere or no
digit comes first. -/
def scanDigits : (gap : Bool) → List Char → Option (List Nat × List Char)
  | gap, [] => if gap then none else some ([], [])
  | gap, c :: rest =>
    match Text.digitValue? c with
    | some d => (scanDigits false rest).map fun (digits, rest) => (d :: digits, rest)
    | none =>
      if gap then none
      else if c = '_' then scanDigits true rest
      else some ([], c :: rest)

/-- Splits a leading sign off; true for a minus. -/
def splitSign : List Char → Bool × List Char
  | '-' :: rest => (true, rest)
  | '+' :: rest => (false, rest)
  | s => (false, s)

/-- The integer that a text writes.  Too many digits are reported before what follows them is looked
at. -/
def readInteger (text : String) : Except IntegerFault Int :=
  let (negative, s) := splitSign (text.toList.dropWhile Text.isNumeralBlank)
  match scanDigits true s with
  | none => .error (.malformed text)
  | some (digits, rest) =>
    if maxDigits < digits.length then .error (.tooManyDigits digits.length)
    else if rest.all Text.isNumeralBlank then
      let n : Int := ofDigits digits
      .ok (if negative then -n else n)
    else .error (.malformed text)

end GeoWorkload.Numeral
