import GeoWorkload.Files
import GeoWorkload.Json.Reader
import GeoWorkload.Text.Blank

/-!
# Corpora

The documents that a text holds (`Corpus.ofText`): the features of a collection, the items of an array, a
single object, or one object a line where the text as a whole is no JSON.  `Corpus.ofFile` reads those of a
file.  The documents are those whose strings hold no half of a pair of UTF-16 units (`Json.ofUnit`).
-/

namespace GeoWorkload

/-- Why a text holds no documents. -/
inductive CorpusFault where
  | lineNotJson (line : Nat) (error : Json.ReadError)
  | lineNotObject (line : Nat)
  | notList
  | entryNotObject (index : Nat)
  /-- A number of the text has too many digits. -/
  | tooManyDigits (digits : Nat)
deriving DecidableEq, Repr

namespace CorpusFault

/-- The wording of a fault in the text at a path. -/
def message (path : String) : CorpusFault → String
  | lineNotJson line error => path ++ ":" ++ toString line ++ ": invalid JSON: " ++ error.message
  | lineNotObject line => path ++ ":" ++ toString line ++ ": expected an object"
  | notList => path ++ ": expected a FeatureCollection, array or JSON lines"
  | entryNotObject index => path ++ ": entry " ++ toString index ++ " is not an object"
  | tooManyDigits digits => Numeral.tooManyDigitsMessage digits

end CorpusFault

/-- Why a file gives no documents. -/
inductive CorpusFileFault where
  /-- The file cannot be read. -/
  | file (fault : FileFault)
  /-- The text of the file holds no documents. -/
  | content (path : String) (fault : CorpusFault)
deriving DecidableEq, Repr

namespace CorpusFileFault

/-- The wording of a fault. -/
def message : CorpusFileFault → String
  | file fault => fault.message
  | content path fault => fault.message path

/-- Whether a load reports the fault and ends: one of the system or of the documents. -/
def isExpected : CorpusFileFault → Bool
  | file fault => fault.isOfSystem
  | content _ (.tooManyDigits _) => false
  | content .. => true

end CorpusFileFault

namespace Corpus

/-- Whether a value is an object. -/
def isObject : Json.Value → Bool
  | .object _ => true
  | _ => false

/-- The document on a line. -/
def ofLine (number : Nat) (line : String) : Except CorpusFault Json.Value :=
  match Json.read line with
  | .error (.integerTooLong digits) => .error (.tooManyDigits digits)
  | .error e => .error (.lineNotJson number e)
  | .ok v => if isObject v then .ok v else .error (.lineNotObject number)

/-- The documents on lines, the first of them of the given number; blank lines hold none. -/
def ofLines : (number : Nat) → List String → Except CorpusFault (List Json.Value)
  | _, [] => .ok []
  | number, line :: rest =>
    if Text.strip line = "" then ofLines (number + 1) rest
    else do
      let doc ← ofLine number line
      return doc :: (← ofLines (number + 1) rest)

/-- The list of the documents that a value stands for: the features of a collection, an object alone, or
an array. -/
def listOf : Json.Value → Except CorpusFault (List Json.Value)
  | .object members =>
    if Json.Members.get members "type" = .string "FeatureCollection" then
      match Json.Members.get members "features" with
      | .array items => .ok items
      | v => if v.isTruthy then .error .notList else .ok []
    else .ok [.object members]
  | .array items => .ok items
  | _ => .error .notList

/-- The documents of a list, all of which have to be objects. -/
def checked (items : List Json.Value) : Except CorpusFault (List Json.Value) :=
  match items.findIdx? fun v => !isObject v with
  | some index => .error (.entryNotObject index)
  | none => .ok items

/-- The documents of a text. -/
def ofText (text : String) : Except CorpusFault (List Json.Value) :=
  match Json.read text with
  | .ok v => (listOf v).bind checked
  | .error (.integerTooLong digits) => .error (.tooManyDigits digits)
  | .error (.malformed ..) => ofLines 1 (Text.lines text)

/-- The documents of a file. -/
def ofFile (files : Files) (homes : Homes) (path : String) :
    Except CorpusFileFault (List Json.Value) := do
  let p ← (Files.pathOf homes path).mapError .file
  let text ← (files.readText p).mapError .file
  (ofText text).mapError (.content p.text)

end Corpus

end GeoWorkload
