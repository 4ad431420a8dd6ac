import GeoWorkload.Json.Value
import GeoWorkload.Numeral.Real
import GeoWorkload.Text.Digit

/-!
# Reading JSON

`read` takes a JSON text to its value, or says what is wrong and where.  Blanks are space, tab, line
feed and carriage return; a number with a fraction or an exponent is binary64 and any other an
integer; the words for an infinity and for what is not a number are read; a name given twice keeps
its first place and its last value.

Errors are placed by the number of characters that follow (`Fault`), which `read` turns into line,
column and offset (`ReadError`).

Values may be nested to any depth: that a platform may run out of stack, and fail there, is left out.  So is half of a
pair of UTF-16 units in a string, which no character stands for (`ofUnit`).
-/

namespace GeoWorkload.Json

/-- What the reader misses. -/
inductive Reason where
  | value
  | nothingMore
  | name
  | colon
  | comma
  | closingQuote
  | plainCharacter
  | escape
  | unicodeEscape
  | noByteOrderMark
deriving DecidableEq, Repr

/-- The wording of a reason. -/
def Reason.message : Reason → String
  | value => "Expecting value"
  | nothingMore => "Extra data"
  | name => "Expecting property name enclosed in double quotes"
  | colon => "Expecting ':' delimiter"
  | comma => "Expecting ',' delimiter"
  | closingQuote => "Unterminated string starting at"
  | plainCharacter => "Invalid control character at"
  | escape => "Invalid \\escape"
  | unicodeEscape => "Invalid \\uXXXX escape"
  | noByteOrderMark => "Unexpected UTF-8 BOM (decode using utf-8-sig)"

/-- What stops the reader, with the number of characters from there to the end. -/
inductive Fault where
  | malformed (reason : Reason) (remaining : Nat)
  | integerTooLong (digits : Nat)
deriving DecidableEq, Repr

/-- Why a text is no JSON value. -/
inductive ReadError where
  /-- The text breaks the grammar at a line and column, both from one, and an offset from zero. -/
  | malformed (reason : Reason) (line column offset : Nat)
  /-- The text holds an integer with too many digits. -/
  | integerTooLong (digits : Nat)
deriving DecidableEq, Repr

/-- The wording of a read error. -/
def ReadError.message : ReadError → String
  | malformed reason line column offset =>
    reason.message ++ ": line " ++ toString line ++ " column " ++ toString column ++
      " (char " ++ toString offset ++ ")"
  | integerTooLong digits => Numeral.tooManyDigitsMessage digits

/-- The blanks between the parts of a JSON text. -/
def isBlank (c : Char) : Bool :=
  c = ' ' || c = '\t' || c = '\n' || c = '\r'

/-- The text after its leading blanks. -/
def skipBlanks (s : List Char) : List Char := s.dropWhile isBlank

/-- What a backslash and the given character stand for. -/
def shortEscape? : Char → Option Char
  | '"' => some '"'
  | '\\' => some '\\'
  | '/' => some '/'
  | 'b' => some '\x08'
  | 'f' => some '\x0c'
  | 'n' => some '\n'
  | 'r' => some '\r'
  | 't' => some '\t'
  | _ => none

/-- The UTF-16 unit that four hexadecimal digits write. -/
def unit? (a b c d : Char) : Option Nat := do
  let a ← Text.hexValue? a
  let b ← Text.hexValue? b
  let c ← Text.hexValue? c
  let d ← Text.hexValue? d
  return ((a * 16 + b) * 16 + c) * 16 + d

/-- Whether a UTF-16 unit opens a pair. -/
def isHighUnit (u : Nat) : Bool := 0xd800 ≤ u && u ≤ 0xdbff

/-- Whether a UTF-16 unit closes a pair. -/
def isLowUnit (u : Nat) : Bool := 0xdc00 ≤ u && u ≤ 0xdfff

/-- The character of a UTF-16 unit that stands alone.  Half of a pair has none and is read as the replacement character,
which keeps the reader total; documents with such a half are outside of what is modelled. -/
def ofUnit (u : Nat) : Char :=
  if isHighUnit u || isLowUnit u then '\ufffd' else Char.ofNat u

/-- The character of a pair of UTF-16 units. -/
def ofPair (high low : Nat) : Char :=
  Char.ofNat (0x10000 + (high - 0xd800) * 0x400 + (low - 0xdc00))

/-- The content of a string and what follows its closing quote.  `opening` counts the characters from
the opening quote to the end. -/
def readString (opening : Nat) : List Char → Except Fault (List Char × List Char)
  | [] => .error (.malformed .closingQuote opening)
  | '"' :: rest => .ok ([], rest)
  | ['\\'] => .error (.malformed .closingQuote opening)
  | '\\' :: 'u' :: a :: b :: c :: d :: tail =>
    match if tail.isEmpty then none else unit? a b c d with
    | none => .error (.malformed .unicodeEscape (tail.length + 5))
    | some u =>
      let alone := fun (_ : Unit) => (readString opening tail).map fun (s, r) => (ofUnit u :: s, r)
      match tail with
      | '\\' :: 'u' :: e :: f :: g :: h :: tail' =>
        if !isHighUnit u || tail'.isEmpty then alone ()
        else
          match unit? e f g h with
          | none => .error (.malformed .unicodeEscape (tail'.length + 5))
          | some v =>
            if isLowUnit v then
              (readString opening tail').map fun (s, r) => (ofPair u v :: s, r)
            else alone ()
      | _ => alone ()
  | '\\' :: 'u' :: rest => .error (.malformed .unicodeEscape (rest.length + 1))
  | '\\' :: c :: rest =>
    match shortEscape? c with
    | none => .error (.malformed .escape (rest.length + 2))
    | some c => (readString opening rest).map fun (s, r) => (c :: s, r)
  | c :: rest =>
    if c.toNat < 0x20 then .error (.malformed .plainCharacter (rest.length + 1))
    else (readString opening rest).map fun (s, r) => (c :: s, r)
termination_by structural s => s

/-- The digits of the fraction at the start of a text: a point and at least one digit. -/
def readFraction? : List Char → Option (List Nat × List Char)
  | '.' :: rest =>
    let (digits, rest') := Numeral.spanDigits rest
    if digits.isEmpty then none else some (digits, rest')
  | _ => none

/-- The digits before the point: a zero alone, or digits that start with another one. -/
def readWhole? : List Char → Option (List Nat × List Char)
  | '0' :: rest => some ([0], rest)
  | s =>
    let (digits, rest) := Numeral.spanDigits s
    if digits.isEmpty then none else some (digits, rest)

/-- A number and what follows it.  A fraction or an exponent that is not whole is left unread. -/
def readNumber (s : List Char) : Except Fault (Value × List Char) :=
  let (negative, unsigned) := match s with
    | '-' :: rest => (true, rest)
    | _ => (false, s)
  match readWhole? unsigned with
  | none => .error (.malformed .value s.length)
  | some (whole, rest) =>
    let fraction? := readFraction? rest
    let (fraction, rest) := fraction?.getD ([], rest)
    let exponent? := Numeral.readExponent? rest
    let (exponent, rest) := exponent?.getD (0, rest)
    if fraction?.isSome || exponent?.isSome then
      .ok (.float (.ofDecimal negative (Numeral.ofDigits (whole ++ fraction))
        (exponent - fraction.length)), rest)
    else if Numeral.maxDigits < whole.length then .error (.integerTooLong whole.length)
    else
      let n : Int := Numeral.ofDigits whole
      .ok (.int (if negative then -n else n), rest)

/-- The words that stand for values. -/
def words : List (List Char × Value) :=
  [("null".toList, .null), ("true".toList, .bool true), ("false".toList, .bool false),
    ("NaN".toList, .float .nan), ("Infinity".toList, .float (.infinite false)),
    ("-Infinity".toList, .float (.infinite true))]

/-- A word or a number and what follows it. -/
def readAtom (s : List Char) : Except Fault (Value × List Char) :=
  match words.find? fun (word, _) => word.isPrefixOf s with
  | some (word, v) => .ok (v, s.drop word.length)
  | none => readNumber s

mutual

/-- A value and what follows it; the number bounds the nesting. -/
def readValue : Nat → List Char → Except Fault (Value × List Char)
  | 0, s => .error (.malformed .value s.length)
  | n + 1, s =>
    match s with
    | [] => .error (.malformed .value 0)
    | '"' :: rest => do
      let (content, rest) ← readString s.length rest
      return (.string (String.ofList content), rest)
    | '{' :: rest =>
      match skipBlanks rest with
      | '}' :: rest => .ok (.object [], rest)
      | rest => do
        let (members, rest) ← readMembers n [] rest
        return (.object members, rest)
    | '[' :: rest =>
      match skipBlanks rest with
      | ']' :: rest => .ok (.array [], rest)
      | rest => do
        let (items, rest) ← readItems n rest
        return (.array items, rest)
    | s => readAtom s

/-- The items of an array from the next one on, and what follows the closing bracket. -/
def readItems : Nat → List Char → Except Fault (List Value × List Char)
  | 0, s => .error (.malformed .value s.length)
  | n + 1, s => do
    let (v, rest) ← readValue n s
    match skipBlanks rest with
    | ']' :: rest => return ([v], rest)
    | ',' :: rest =>
      let (vs, rest) ← readItems n (skipBlanks rest)
      return (v :: vs, rest)
    | rest => throw (.malformed .comma rest.length)

/-- The members of an object from the next one on, added to those read so far, and what follows the
closing brace. -/
def readMembers : Nat → Members → List Char → Except Fault (Members × List Char)
  | 0, _, s => .error (.malformed .name s.length)
  | n + 1, members, s =>
    match s with
    | '"' :: rest => do
      let (content, rest) ← readString s.length rest
      match skipBlanks rest with
      | ':' :: rest =>
        let (v, rest) ← readValue n (skipBlanks rest)
        let members := members.set (String.ofList content) v
        match skipBlanks rest with
        | '}' :: rest => return (members, rest)
        | ',' :: rest => readMembers n members (skipBlanks rest)
        | rest => throw (.malformed .comma rest.length)
      | rest => throw (.malformed .colon rest.length)
    | s => .error (.malformed .name s.length)

end

/-- The line and the column, from one, of the character after `before`. -/
def placeAfter (before : List Char) : Nat × Nat :=
  (before.count '\n' + 1, (before.reverse.takeWhile (· ≠ '\n')).length + 1)

/-- The error that a fault in the text `s` amounts to. -/
def Fault.locate (s : List Char) : Fault → ReadError
  | .integerTooLong digits => .integerTooLong digits
  | .malformed reason remaining =>
    let offset := s.length - remaining
    let (line, column) := placeAfter (s.take offset)
    .malformed reason line column offset

/-- The value that makes up the whole of a text, blanks around it apart. -/
def readChars (s : List Char) : Except Fault Value :=
  match s with
  | '\ufeff' :: _ => .error (.malformed .noByteOrderMark s.length)
  | _ => do
    let (v, rest) ← readValue (2 * s.length + 2) (skipBlanks s)
    match skipBlanks rest with
    | [] => return v
    | rest => throw (.malformed .nothingMore rest.length)

/-- The value that a JSON text writes. -/
def read (text : String) : Except ReadError Value :=
  let s := text.toList
  (readChars s).mapError (Fault.locate s)

end GeoWorkload.Json
