import GeoWorkload.Binary64.Shortest
import GeoWorkload.Json.Value
import GeoWorkload.Numeral.Integer

/-!
# Writing JSON

`Value.render` writes a value in ASCII: members in their order, every character outside the
printable ASCII ones as a short escape or as UTF-16 units in lower-case hexadecimal, and binary64
numbers in their shortest form.  A `Style` says what stands between items and after names: `compact`
for records, `spaced` for documents.  Values may be nested to any depth: that a platform may run out of stack, and
fail there, is left out.
-/

namespace GeoWorkload.Json

/-- What separates items and what separates a name from its value. -/
structure Style where
  item : List Char
  name : List Char
deriving DecidableEq, Repr

/-- No blanks. -/
def Style.compact : Style := ⟨[','], [':']⟩

/-- A blank after each separator. -/
def Style.spaced : Style := ⟨[',', ' '], [':', ' ']⟩

/-- The escape of a UTF-16 unit. -/
def unitEscape (u : Nat) : List Char := '\\' :: 'u' :: Text.hexDigits 4 u

/-- A character inside a string. -/
def escapeChar (c : Char) : List Char :=
  if c = '\x22' then ['\\', c]
  else if c = '\\' then ['\\', c]
  else if c = '\n' then ['\\', 'n']
  else if c = '\r' then ['\\', 'r']
  else if c = '\t' then ['\\', 't']
  else if c = '\x0c' then ['\\', 'f']
  else if c = '\x08' then ['\\', 'b']
  else if 0x20 ≤ c.toNat ∧ c.toNat ≤ 0x7e then [c]
  else if c.toNat < 0x10000 then unitEscape c.toNat
  else
    let n := c.toNat - 0x10000
    unitEscape (0xd800 + n / 0x400) ++ unitEscape (0xdc00 + n % 0x400)

/-- A string between its quotes. -/
def renderString (s : String) : List Char :=
  '\x22' :: s.toList.flatMap escapeChar ++ ['\x22']

/-- A binary64 number. -/
def renderFloat : Binary64 → List Char
  | .nan => "NaN".toList
  | .infinite negative => (if negative then "-Infinity" else "Infinity").toList
  | x => x.text.toList

namespace Value

mutual

/-- The text of a value. -/
def render (style : Style) : Value → List Char
  | null => "null".toList
  | bool b => (if b then "true" else "false").toList
  | int n => (Numeral.decimal n).toList
  | float x => renderFloat x
  | string s => renderString s
  | array items => '[' :: renderItems style items ++ [']']
  | object members => '{' :: renderMembers style members ++ ['}']
termination_by structural v => v

/-- Items with separators between them. -/
def renderItems (style : Style) : List Value → List Char
  | [] => []
  | [v] => render style v
  | v :: w :: rest => render style v ++ style.item ++ renderItems style (w :: rest)
termination_by structural v => v

/-- Members with separators between them. -/
def renderMembers (style : Style) : List (String × Value) → List Char
  | [] => []
  | [member] => renderMember style member
  | member :: next :: rest =>
    renderMember style member ++ style.item ++ renderMembers style (next :: rest)
termination_by structural v => v

/-- A name and its value. -/
def renderMember (style : Style) : String × Value → List Char
  | (name, v) => renderString name ++ style.name ++ render style v
termination_by structural v => v

end

/-- The text of a value without blanks. -/
def compactText (v : Value) : String := String.ofList (v.render .compact)

/-- The text of a value with blanks after separators. -/
def spacedText (v : Value) : String := String.ofList (v.render .spaced)

mutual

/-- Whether no integer of a value is too long to be written. -/
def isWritable : Value → Bool
  | int n => decide (Numeral.IsWritable n)
  | array items => itemsWritable items
  | object members => membersWritable members
  | null | bool _ | float _ | string _ => true
termination_by structural v => v

/-- Whether all items can be written. -/
def itemsWritable : List Value → Bool
  | [] => true
  | v :: rest => isWritable v && itemsWritable rest
termination_by structural v => v

/-- Whether all members can be written. -/
def membersWritable : List (String × Value) → Bool
  | [] => true
  | member :: rest => memberWritable member && membersWritable rest
termination_by structural v => v

/-- Whether the value of a member can be written. -/
def memberWritable : String × Value → Bool
  | (_, v) => isWritable v
termination_by structural v => v

end

theorem isWritable_int (n : Int) : (int n).isWritable = decide (Numeral.IsWritable n) := rfl

theorem itemsWritable_cons (v : Value) (rest : List Value) :
    itemsWritable (v :: rest) = (v.isWritable && itemsWritable rest) := rfl

theorem membersWritable_cons (member : String × Value) (rest : Members) :
    membersWritable (member :: rest) = (memberWritable member && membersWritable rest) := rfl

theorem memberWritable_eq (member : String × Value) : memberWritable member = member.2.isWritable := by
  cases member
  rfl

end Value

end GeoWorkload.Json
