/-!
# Blank characters

Which characters count as blank at the ends of a text (`isBlank`), which of them may also surround
a numeral (`isNumeralBlank`), and the text without its blank ends (`strip`).
-/

namespace GeoWorkload.Text

/-- The blank characters: tab to carriage return, the four information separators, the space and
the blanks beyond ASCII. -/
def isBlank (c : Char) : Bool :=
  let n := c.toNat
  (9 ≤ n && n ≤ 13) || (28 ≤ n && n ≤ 32) || n == 0x85 || n == 0xa0 || n == 0x1680 ||
    (0x2000 ≤ n && n ≤ 0x200a) || n == 0x2028 || n == 0x2029 || n == 0x202f || n == 0x205f ||
    n == 0x3000

/-- The blanks that may stand around a numeral: all but the four information separators. -/
def isNumeralBlank (c : Char) : Bool :=
  isBlank c && !(28 ≤ c.toNat && c.toNat ≤ 31)

/-- The characters of `s` from the first to the last one that is not blank. -/
def stripChars (s : List Char) : List Char :=
  ((s.dropWhile isBlank).reverse.dropWhile isBlank).reverse

/-- The text without the blanks at its two ends. -/
def strip (s : String) : String :=
  String.ofList (stripChars s.toList)

/-- The ASCII capitals in lower case; no other character changes. -/
def lower (s : String) : String :=
  String.ofList (s.toList.map Char.toLower)

end GeoWorkload.Text
