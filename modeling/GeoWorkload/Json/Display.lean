import GeoWorkload.Binary64.Shortest
import GeoWorkload.Json.Value
import GeoWorkload.Numeral.Integer
import GeoWorkload.Text.Quoted

/-!
# JSON values in messages

How a message shows a value: `Value.quoted` with its texts in quotes, as inside lists, and
`Value.display`, the same but for a text itself, which stands without quotes.
-/

namespace GeoWorkload.Json.Value

mutual

/-- A value with its texts in quotes. -/
def quotedChars : Value → List Char
  | null => "None".toList
  | bool b => (if b then "True" else "False").toList
  | int n => (Numeral.decimal n).toList
  | float x => x.text.toList
  | string s => (Text.quoted s).toList
  | array items => '[' :: quotedItems items ++ [']']
  | object members => '{' :: quotedMembers members ++ ['}']
termination_by structural v => v

/-- Items with commas between them. -/
def quotedItems : List Value → List Char
  | [] => []
  | [v] => quotedChars v
  | v :: w :: rest => quotedChars v ++ [',', ' '] ++ quotedItems (w :: rest)
termination_by structural v => v

/-- Members with commas between them. -/
def quotedMembers : List (String × Value) → List Char
  | [] => []
  | [member] => quotedMember member
  | member :: next :: rest => quotedMember member ++ [',', ' '] ++ quotedMembers (next :: rest)
termination_by structural v => v

/-- A name and its value. -/
def quotedMember : String × Value → List Char
  | (name, v) => (Text.quoted name).toList ++ [':', ' '] ++ quotedChars v
termination_by structural v => v

end

/-- A value with its texts in quotes. -/
def quoted (v : Value) : String := String.ofList v.quotedChars

/-- A value as a text: a text is itself, any other value is shown with its texts in quotes. -/
def display : Value → String
  | string s => s
  | v => v.quoted

end GeoWorkload.Json.Value
