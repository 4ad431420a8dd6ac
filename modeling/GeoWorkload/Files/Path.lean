/-!
# Paths

A path is a root and the names below it (`Path`).  Reading one drops empty names and those that are a
single dot (`Path.ofText`), so that `Path.text` writes a path that means the same.
-/

namespace GeoWorkload

/-- The home of each user who has one; the empty name stands for the one who runs the program. -/
abbrev Homes := String → Option String

/-- A path: a root, empty for a relative path, and names. -/
structure Path where
  root : String
  names : List String
deriving DecidableEq, Repr

namespace Path

/-- The parts of a text between slashes. -/
def parts (s : List Char) : List (List Char) :=
  s.foldr (fun c parts =>
    match c, parts with
    | '/', _ => [] :: parts
    | c, part :: rest => (c :: part) :: rest
    | c, [] => [[c]]) [[]]

/-- The root that a text starts with: exactly two slashes are a root of their own, and any other number
of them counts as one. -/
def rootOf : List Char → String
  | '/' :: '/' :: '/' :: _ => "/"
  | '/' :: '/' :: _ => "//"
  | '/' :: _ => "/"
  | _ => ""

/-- The path that a text writes. -/
def ofText (s : String) : Path where
  root := rootOf s.toList
  names := ((parts s.toList).filter fun part => part ≠ [] && part ≠ ['.']).map String.ofList

/-- The text of a path; a single dot where there is nothing to write. -/
def text (p : Path) : String :=
  if p.root = "" && p.names.isEmpty then "." else p.root ++ String.intercalate "/" p.names

/-- The path without its last name. -/
def parent (p : Path) : Path := { p with names := p.names.dropLast }

/-- Whether a name holds a character that no file name may hold. -/
def hasNull (p : Path) : Bool := p.names.any fun name => name.toList.contains '\x00'

/-- The user whom a leading tilde names, if there is one; the empty name stands for the one who runs the
program. -/
def user? (p : Path) : Option String :=
  match p.root, p.names with
  | "", first :: _ =>
    match first.toList with
    | '~' :: user => some (String.ofList user)
    | _ => none
  | _, _ => none

/-- A text without slashes at its end. -/
def trimmed (s : String) : String :=
  String.ofList (s.toList.reverse.dropWhile (· = '/')).reverse

/-- The path with its first name replaced by a home; one that is empty apart from slashes is the root. -/
def under (p : Path) (home : String) : Path :=
  let home := trimmed home
  let h := ofText (if home = "" then "/" else home)
  { h with names := h.names ++ p.names.tail }

end Path

end GeoWorkload
