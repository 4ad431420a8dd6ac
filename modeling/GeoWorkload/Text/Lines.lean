/-!
# Lines

What ends a line of a text (`isLineBreak`), the lines of a text (`lines`), and the one form of line
end that a text file is read with (`unifyLineEnds`).
-/

namespace GeoWorkload.Text

/-- The characters that end a line. -/
def isLineBreak (c : Char) : Bool :=
  let n := c.toNat
  (0x0a ≤ n && n ≤ 0x0d) || (0x1c ≤ n && n ≤ 0x1e) || n == 0x85 || n == 0x2028 || n == 0x2029

/-- The lines of `s`, the first of them after the characters `line`, given in reverse. -/
def linesFrom : (line : List Char) → (s : List Char) → List (List Char)
  | [], [] => []
  | line, [] => [line.reverse]
  | line, '\r' :: '\n' :: rest => line.reverse :: linesFrom [] rest
  | line, c :: rest =>
    if isLineBreak c then line.reverse :: linesFrom [] rest else linesFrom (c :: line) rest

/-- The lines of a text without their ends; a last line needs no end, and an end starts no line. -/
def lines (s : String) : List String :=
  (linesFrom [] s.toList).map String.ofList

/-- A carriage return, alone or before a line feed, becomes a line feed. -/
def unifyLineEnds : List Char → List Char
  | [] => []
  | '\r' :: '\n' :: rest => '\n' :: unifyLineEnds rest
  | c :: rest => (if c = '\r' then '\n' else c) :: unifyLineEnds rest

/-- The text of a file: its bytes as UTF-8 with the ends of lines unified, or nothing where they
are not UTF-8. -/
def ofBytes? (bytes : ByteArray) : Option String :=
  (String.fromUTF8? bytes).map fun s => String.ofList (unifyLineEnds s.toList)

end GeoWorkload.Text
