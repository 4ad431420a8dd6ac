import GeoWorkload.Text.Digit
import GeoWorkload.Text.Printable

/-!
# Quoted texts

How messages show a text: between single quotes, or double quotes where the text holds a single
and no double one, with escapes for the quote, the backslash and what is not printable.
-/

namespace GeoWorkload.Text

/-- One character between quotes of the given kind. -/
def escapeQuoted (quote c : Char) : List Char :=
  if c = '\\' ∨ c = quote then ['\\', c]
  else if c = '\n' then ['\\', 'n']
  else if c = '\r' then ['\\', 'r']
  else if c = '\t' then ['\\', 't']
  else if isPrintable c then [c]
  else if c.toNat < 0x100 then '\\' :: 'x' :: hexDigits 2 c.toNat
  else if c.toNat < 0x10000 then '\\' :: 'u' :: hexDigits 4 c.toNat
  else '\\' :: 'U' :: hexDigits 8 c.toNat

/-- The quote that surrounds a text: the double one only for a text with a single and no double
quote in it. -/
def quoteFor (s : List Char) : Char :=
  if s.contains '\x27' && !s.contains '\x22' then '\x22' else '\x27'

/-- The quoted form of a text. -/
def quoted (s : String) : String :=
  let chars := s.toList
  let quote := quoteFor chars
  String.ofList (quote :: chars.flatMap (escapeQuoted quote) ++ [quote])

end GeoWorkload.Text
