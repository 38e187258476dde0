import NullReturns.Text.Lines

/-! # File trees

A working directory with the files below it and around it, as a value. Operations follow paths name by
name, and every name but the last has to lead to a directory.
-/

namespace NullReturns.Files

/-! ## Faults of file operations -/

inductive Fault where
  | notFound
  | alreadyThere
  | notDirectory
  | isDirectory
  | nameTooLong
  /-- A path with a zero byte. -/
  | zeroByte
  /-- A file that is not UTF-8 text. -/
  | notText
  /-- Anything else, in the system's words. -/
  | other (text : String)
deriving DecidableEq, Repr

def Fault.message : Fault → String
  | .notFound => "No such file or directory (os error 2)"
  | .alreadyThere => "File exists (os error 17)"
  | .notDirectory => "Not a directory (os error 20)"
  | .isDirectory => "Is a directory (os error 21)"
  | .nameTooLong => "File name too long (os error 36)"
  | .zeroByte => "file name contained an unexpected NUL byte"
  | .notText => "stream did not contain valid UTF-8"
  | .other text => text

/-! ## Paths

Names separated by slashes. Repeated slashes, a slash at the end, and `.` anywhere but in front add nothing
to a path.
-/

/-- A path by its names. `..` is a name, and so is `.` in front of a relative path. -/
structure Path where
  isAbsolute : Bool
  names : List String
deriving DecidableEq, Repr

namespace Path

/-- The names between the slashes of a text, empty ones included. -/
def pieces (text : String) : List String := (Text.split '/' text.toList).map String.ofList

def ofString (text : String) : Path :=
  match pieces text with
  | "." :: rest => ⟨false, "." :: proper rest⟩
  | pieces => ⟨text.toList.head? = some '/', proper pieces⟩
where
  /-- The pieces that lead somewhere else. -/
  proper (pieces : List String) : List String := pieces.filter fun piece => piece != "" && piece != "."

def toString (path : Path) : String :=
  (if path.isAbsolute then "/" else "") ++ String.intercalate "/" path.names

/-- The path without its last name; a root and the empty path have none. -/
def parent? (path : Path) : Option Path :=
  if path.names.isEmpty then none else some { path with names := path.names.dropLast }

/-- The last name, unless it says to stay or to go up. -/
def fileName? (path : Path) : Option String :=
  path.names.getLast?.filter fun name => name != "." && name != ".."

end Path

/-- The text of `path` as seen from `directory`. -/
def join (directory path : String) : String :=
  if path.toList.head? = some '/' || directory.isEmpty then path
  else if directory.toList.getLast? = some '/' then directory ++ path
  else directory ++ "/" ++ path

/-- The directory that holds the file a path names. -/
def directoryOf (path : String) : String := ((Path.ofString path).parent?.map (·.toString)).getD ""

/-! ## Directories -/

/-- Names from the working directory down. Directories above it are reached by leading `..`, the file
tree's root by a leading `/`. -/
abbrev Place := List String

inductive Entry where
  | directory
  | file (content : ByteArray)

/-- What was put into the tree. -/
structure Directory where
  entries : List (Place × Entry) := []

namespace Place

def isUp (name : String) : Bool := name == ".." || name == "/"

/-- One name further. -/
def step (place : Place) (name : String) : Place :=
  if name == ".." then
    match place.getLast? with
    | none => [".."]
    | some ".." => place ++ [".."]
    | some "/" => place
    | some _ => place.dropLast
  else place ++ [name]

end Place

namespace Directory

/-- What is at a place. The working directory and those above it are always there. -/
def entry? (directory : Directory) (place : Place) : Option Entry :=
  if place.all Place.isUp then some .directory else directory.entries.lookup place

def put (directory : Directory) (place : Place) (entry : Entry) : Directory :=
  ⟨(place, entry) :: directory.entries.filter fun (other, _) => other != place⟩

/-- Follows names through directories. -/
def follow (directory : Directory) : Place → List String → Except Fault Place
  | place, [] => .ok place
  | place, name :: rest =>
    match directory.entry? place with
    | none => .error .notFound
    | some (.file _) => .error .notDirectory
    | some .directory =>
      if 255 < name.utf8ByteSize then .error .nameTooLong
      else if name == "." then directory.follow place rest
      else directory.follow (place.step name) rest

/-- Where a path starts and the names on it, `.` included. -/
def route (path : String) : Except Fault (Place × List String) :=
  if path.toList.contains '\x00' then .error .zeroByte
  else if path.isEmpty then .error .notFound
  else if 4096 ≤ path.utf8ByteSize then .error .nameTooLong
  else
    .ok (if path.toList.head? = some '/' then ["/"] else [], (Path.pieces path).filter (· != ""))

/-- The path ends in a slash. -/
def endsInSlash (path : String) : Bool := path.toList.getLast? = some '/'

/-- What a path leads to. -/
def find (directory : Directory) (path : String) : Except Fault Entry := do
  let (start, names) ← route path
  let place ← directory.follow start names
  match directory.entry? place with
  | none => .error .notFound
  | some .directory => .ok .directory
  | some (.file content) =>
    if endsInSlash path then .error .notDirectory else .ok (.file content)

/-- The path leads to something. -/
def holds (directory : Directory) (path : String) : Bool := (directory.find path).isOk

def isDirectory (directory : Directory) (path : String) : Bool :=
  match directory.find path with
  | .ok .directory => true
  | _ => false

/-- The text of a file. -/
def read (directory : Directory) (path : String) : Except Fault String := do
  match ← directory.find path with
  | .directory => .error .isDirectory
  | .file content =>
    match String.fromUTF8? content with
    | some text => .ok text
    | none => .error .notText

/-- The place for the last name of a path; none when it only says to stay or to go up. -/
def target (directory : Directory) (path : String) : Except Fault (Option Place) := do
  let (start, names) ← route path
  let last := names.getLast?.getD "."
  let parent ← directory.follow start names.dropLast
  match directory.entry? parent with
  | none => .error .notFound
  | some (.file _) => .error .notDirectory
  | some .directory =>
    if 255 < last.utf8ByteSize then .error .nameTooLong
    else if last == "." || last == ".." then .ok none
    else .ok (some (parent.step last))

/-- Writes a file, in place of an older one. -/
def write (directory : Directory) (path : String) (text : String) : Except Fault Directory := do
  match ← directory.target path with
  | none => .error .isDirectory
  | some place =>
    if endsInSlash path then .error .isDirectory
    else
      match directory.entry? place with
      | some .directory => .error .isDirectory
      | _ => .ok (directory.put place (.file text.toUTF8))

/-- Makes one directory. -/
def make (directory : Directory) (path : String) : Except Fault Directory := do
  match ← directory.target path with
  | none => .error .alreadyThere
  | some place =>
    match directory.entry? place with
    | some _ => .error .alreadyThere
    | none => .ok (directory.put place .directory)

/-- Makes one directory, or finds it made. -/
def ensure (directory : Directory) (path : String) : Except Fault Directory :=
  match directory.make path with
  | .ok made => .ok made
  | .error fault => if directory.isDirectory path then .ok directory else .error fault

/-- Makes a directory after those it stands in, of which `depth` may be missing. -/
def makeWithin (directory : Directory) : Nat → String → Except Fault Directory
  | 0, path => directory.ensure path
  | depth + 1, path =>
    if path.isEmpty then .ok directory
    else
      match directory.ensure path with
      | .error .notFound =>
        match (Path.ofString path).parent? with
        | none => .error .notFound
        | some parent => do (← directory.makeWithin depth parent.toString).ensure path
      | outcome => outcome

/-- Makes a directory and all directories it stands in. -/
def makeAll (directory : Directory) (path : String) : Except Fault Directory :=
  directory.makeWithin ((Path.ofString path).names.length + 1) path

end Directory

end NullReturns.Files
