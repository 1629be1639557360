import CoreCount.Os.Read

/-!
A tree of files and directories without links, and what opening a path in it gives.
-/

namespace CoreCount.Os

inductive Entry where
  | file (contents : Bytes)
  | directory
  deriving DecidableEq

/-- A place in the tree: the names that lead to it, innermost first. -/
abbrev Place := List Bytes

/-- The entries that were made, newest first. The root is a directory in every tree. -/
structure FileSystem where
  entries : List (Place × Entry) := []
  workingDirectory : Place := []

namespace Path

def slash : UInt8 := 47
def here : Bytes := [46]
def up : Bytes := [46, 46]

/-- The largest path and the largest name that the system takes, in bytes. -/
def maxLength : Nat := 4095
def maxNameLength : Nat := 255

/-- The names of a path. One that ends with a slash names a directory, as if `.` followed. -/
def names (path : Bytes) : List Bytes :=
  let parts := path.splitOn slash
  parts.filter (· ≠ []) ++ if parts.getLast? = some [] then [here] else []

def isAbsolute (path : Bytes) : Bool :=
  path.head? = some slash

end Path

namespace FileSystem

def lookup (fs : FileSystem) (place : Place) : Option Entry :=
  if place = [] then some .directory else fs.entries.lookup place

/-- Follows names from a place. Only a directory can be gone through. -/
def walk (fs : FileSystem) (place : Place) : List Bytes → Except Failure Place
  | [] => .ok place
  | name :: rest =>
    if fs.lookup place ≠ some .directory then .error .notADirectory
    else if name = Path.here then fs.walk place rest
    else if name = Path.up then fs.walk place.tail rest
    else if Path.maxNameLength < name.length then .error .nameTooLong
    else if (fs.lookup (name :: place)).isNone then .error .noSuchEntry
    else fs.walk (name :: place) rest

def start (fs : FileSystem) (path : Bytes) : Place :=
  if Path.isAbsolute path then [] else fs.workingDirectory

/-- The place that a path leads to. -/
def resolve (fs : FileSystem) (path : Bytes) : Except Failure Place :=
  if 0 ∈ path then .error .zeroByteInPath
  else if path = [] then .error .noSuchEntry
  else if Path.maxLength < path.length then .error .nameTooLong
  else fs.walk (fs.start path) (Path.names path)

/-- What is read from an entry. A directory opens like a file, and its first read fails. -/
def reads : Entry → List Read
  | .file contents => [.data contents]
  | .directory => [.failed .isADirectory]

def openPath (fs : FileSystem) (path : Bytes) : Except Failure (List Read) :=
  match fs.resolve path with
  | .error e => .error e
  | .ok place =>
    match fs.lookup place with
    | none => .error .noSuchEntry
    | some entry => .ok (reads entry)

/-- Makes an entry at a place, and the directories around it that are missing. -/
def make (fs : FileSystem) (entry : Entry) : Place → FileSystem
  | [] => fs
  | name :: parent =>
    let inside := if (fs.lookup parent).isSome then fs else fs.make .directory parent
    { inside with entries := (name :: parent, entry) :: inside.entries }

/-- Makes an entry at a path that names no `.` and no `..`. -/
def makePath (fs : FileSystem) (path : Bytes) (entry : Entry) : FileSystem :=
  let names := (Path.names path).filter (· ≠ Path.here)
  fs.make entry (names.reverse ++ fs.start path)

end FileSystem

end CoreCount.Os
