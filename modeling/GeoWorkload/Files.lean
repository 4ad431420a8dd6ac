import GeoWorkload.Files.Path
import GeoWorkload.Text.Lines
import GeoWorkload.Text.Quoted
import Std.Data.TreeMap

/-!
# Files

The files and directories that a program finds and makes (`Files`), looked up by paths that may lead up
again (`Files.walk`), and why a path cannot be used (`FileFault`).  What is changed before a fault stays
changed (`FileChange`).
-/

namespace GeoWorkload

/-- Why a path cannot be used. -/
inductive FileFault where
  | notFound (path : String)
  | alreadyThere (path : String)
  | notDirectory (path : String)
  | isDirectory (path : String)
  /-- The path has more bytes than paths have, or a name of it more than names have. -/
  | nameTooLong (path : String)
  /-- The path holds the null character. -/
  | nullCharacter
  /-- The file holds no text. -/
  | notText
  /-- The path starts at the home of a user who has none. -/
  | homeUnknown
  /-- Too many directories are missing above the one that is to be made. -/
  | tooDeep
deriving DecidableEq, Repr

namespace FileFault

/-- Whether the system reports the fault. -/
def isOfSystem : FileFault → Bool
  | notFound _ | alreadyThere _ | notDirectory _ | isDirectory _ | nameTooLong _ => true
  | _ => false

/-- The wording of a fault. -/
def message : FileFault → String
  | notFound path => "[Errno 2] No such file or directory: " ++ Text.quoted path
  | alreadyThere path => "[Errno 17] File exists: " ++ Text.quoted path
  | notDirectory path => "[Errno 20] Not a directory: " ++ Text.quoted path
  | isDirectory path => "[Errno 21] Is a directory: " ++ Text.quoted path
  | nameTooLong path => "[Errno 36] File name too long: " ++ Text.quoted path
  | nullCharacter => "embedded null byte"
  | notText => "the file is not valid UTF-8"
  | homeUnknown => "Could not determine home directory."
  | tooDeep => "maximum recursion depth exceeded"

end FileFault

/-- A place in the tree of files: absolute, or relative to where the program runs.  Names that lead up
stand at the start of a relative place only. -/
structure Place where
  isAbsolute : Bool
  names : List String
deriving DecidableEq, Repr, Ord

namespace Place

/-- The place that a name leads to. -/
def step (p : Place) (name : String) : Place :=
  if name ≠ ".." then { p with names := p.names ++ [name] }
  else
    match p.names.getLast? with
    | none => if p.isAbsolute then p else { p with names := [".."] }
    | some ".." => { p with names := p.names ++ [".."] }
    | some _ => { p with names := p.names.dropLast }

/-- Whether the place lies at the top or above it. -/
def isTop (p : Place) : Bool := p.names.all (· = "..")

end Place

/-- What stands at a place. -/
inductive FileNode where
  | file (bytes : ByteArray)
  | directory

/-- What stands at places. -/
structure Files where
  nodes : Std.TreeMap Place FileNode compare := {}

/-- A change of the files, which a fault may end; what was changed before stays changed. -/
abbrev FileChange := ExceptT FileFault (StateM Files)

namespace Files

/-- What stands at a place. -/
def at? (fs : Files) (p : Place) : Option FileNode :=
  if p.isTop then some .directory else fs.nodes[p]?

/-- The files with a node at a place. -/
def put (fs : Files) (p : Place) (node : FileNode) : Files := ⟨fs.nodes.insert p node⟩

/-- The files with a node at the place that names lead to from a place, and with the directories on the way
to it. -/
def putAlong (fs : Files) (node : FileNode) : (start : Place) → List String → Files
  | _, [] => fs
  | start, [name] => fs.put (start.step name) node
  | start, name :: rest =>
    (fs.put (start.step name) .directory).putAlong node (start.step name) rest

/-- The number of bytes that a name may have. -/
def maxNameBytes : Nat := 255

/-- The number of bytes that a path may have. -/
def maxPathBytes : Nat := 4095

/-- The number of missing directories that can be made one below the other. -/
def maxMissing : Nat := 985

/-- The place that names lead to from a place; only a directory leads on.  `path` is what a fault
shows. -/
def walk (fs : Files) (path : String) : (start : Place) → List String → Except FileFault Place
  | start, [] => .ok start
  | start, name :: rest =>
    match fs.at? start with
    | some .directory =>
      if maxNameBytes < name.utf8ByteSize then .error (.nameTooLong path)
      else fs.walk path (start.step name) rest
    | some (.file _) => .error (.notDirectory path)
    | none => .error (.notFound path)

/-- The place where a path starts. -/
def startOf (p : Path) : Place := ⟨p.root ≠ "", []⟩

/-- A path that can be looked up: it holds no null character and is not too long. -/
def checkPath (p : Path) : Except FileFault Unit :=
  if p.hasNull then .error .nullCharacter
  else if maxPathBytes < p.text.utf8ByteSize then .error (.nameTooLong p.text)
  else .ok ()

/-- The place of a path. -/
def placeOf (fs : Files) (p : Path) : Except FileFault Place := do
  checkPath p
  fs.walk p.text (startOf p) p.names

/-- What stands at a path. -/
def find (fs : Files) (p : Path) : Except FileFault FileNode := do
  match fs.at? (← fs.placeOf p) with
  | some node => return node
  | none => throw (.notFound p.text)

/-- Whether something stands at a path. -/
def holds (fs : Files) (p : Path) : Bool := (fs.find p).isOk

/-- The path that a text writes, a leading tilde replaced; a home has to lie somewhere itself. -/
def pathOf (homes : Homes) (text : String) : Except FileFault Path :=
  let p := Path.ofText text
  match p.user? with
  | none => .ok p
  | some user =>
    if user.toList.contains '\x00' then .error .nullCharacter
    else
      match homes user with
      | none => .error .homeUnknown
      | some home =>
        if home.toList.head? = some '~' then .error .homeUnknown else .ok (p.under home)

/-- The bytes of a file. -/
def readBytes (fs : Files) (p : Path) : Except FileFault ByteArray := do
  match ← fs.find p with
  | .file bytes => return bytes
  | .directory => throw (.isDirectory p.text)

/-- The text of a file. -/
def readText (fs : Files) (p : Path) : Except FileFault String := do
  match Text.ofBytes? (← fs.readBytes p) with
  | some text => return text
  | none => throw .notText

end Files

namespace FileChange

/-- Goes on with a value or ends with a fault. -/
def ofExcept {α : Type} (r : Except FileFault α) : FileChange α := ExceptT.mk (pure r)

/-- Puts a node at a place. -/
def put (p : Place) (node : FileNode) : FileChange Unit := modify (·.put p node)

/-- Makes the directories that the last names of a path lead to from one that was just made; a fault shows
the path up to where it arises. -/
def makeMissing (p : Path) : (start : Place) → List String → FileChange Unit
  | _, [] => return
  | start, name :: rest => do
    let next := start.step name
    let path := { p with names := p.names.take (p.names.length - rest.length) }
    match (← get).at? next with
    | some .directory => makeMissing p next rest
    | some (.file _) => throw (.alreadyThere path.text)
    | none =>
      if Files.maxNameBytes < name.utf8ByteSize then throw (.nameTooLong path.text)
      put next .directory
      makeMissing p next rest

/-- Makes the directories that the last names of a path lead to from one that is there. -/
def makeFrom (p : Path) : (start : Place) → List String → FileChange Unit
  | _, [] => return
  | start, name :: rest => do
    let next := start.step name
    match (← get).at? next with
    | some .directory => makeFrom p next rest
    | some (.file _) => throw (if rest = [] then .alreadyThere p.text else .notDirectory p.text)
    | none =>
      if Files.maxNameBytes < name.utf8ByteSize then throw (.nameTooLong p.text)
      if Files.maxMissing < rest.length then throw .tooDeep
      put next .directory
      makeMissing p next rest

/-- Makes a directory and those it lies in; one that is there already is left alone. -/
def makeDirectories (p : Path) : FileChange Unit := do
  ofExcept (Files.checkPath p)
  makeFrom p (Files.startOf p) p.names

/-- Adds bytes at the end of a file, which is made if it is not there. -/
def append (p : Path) (bytes : ByteArray) : FileChange Unit := do
  let files ← get
  let place ← ofExcept (files.placeOf p)
  match files.at? place with
  | some .directory => throw (.isDirectory p.text)
  | some (.file old) => put place (.file (old ++ bytes))
  | none => put place (.file bytes)

/-- Makes the directories that a file lies in and opens it for adding to it. -/
def openToAppend (p : Path) : FileChange Unit := do
  makeDirectories p.parent
  append p ByteArray.empty

end FileChange

end GeoWorkload
