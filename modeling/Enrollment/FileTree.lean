/-
Files and directories, as far as the commands see them.

A path is a text; the names on the way are between its slashes.  It is walked
name by name, so that each directory on the way has to be there.  Writing to a
file replaces its contents and keeps its access rights.  There are no links.
-/
import Enrollment.Bytes
import Enrollment.Text.Utf8

namespace Enrollment

-- ================================================================= faults

/-- Why nothing can be done at a path. -/
inductive FileFault where
  | notFound
  | alreadyExists
  | notDirectory
  | isDirectory
  | nameTooLong
  | notText
  deriving Repr, DecidableEq

/-- The wording of a fault. -/
def FileFault.message : FileFault → String
  | .notFound => "No such file or directory (os error 2)"
  | .alreadyExists => "File exists (os error 17)"
  | .notDirectory => "Not a directory (os error 20)"
  | .isDirectory => "Is a directory (os error 21)"
  | .nameTooLong => "File name too long (os error 36)"
  | .notText => "stream did not contain valid UTF-8"

-- ================================================================== paths

namespace Path

/-- The text between slashes, where it names something. -/
def names (path : String) : List String :=
  let steps := (path.toList.splitOn '/').map String.ofList
  (if path.toList.head? = some '/' then ["/"] else [])
    ++ steps.filter fun step => step ≠ "" && step ≠ "."

/-- A path that leads along names. -/
def ofNames : List String → String
  | "/" :: names => "/" ++ "/".intercalate names
  | names => "/".intercalate names

/-- The path of a name in a directory. -/
def join (directory name : String) : String :=
  match directory.toList.getLast? with
  | none => name
  | some '/' => directory ++ name
  | some _ => directory ++ "/" ++ name

end Path

-- =================================================================== tree

/-- What a path leads to. -/
inductive FileNode where
  | directory
  | file (contents : Bytes) (mode : Nat)
  deriving Repr, DecidableEq

/-- Files and directories by the names that lead to them; what was put in last
counts. -/
structure FileTree where
  nodes : List (List String × FileNode) := []
  deriving Repr, DecidableEq

namespace FileTree

/-- The access rights of a new file, and of one that is for its owner alone. -/
def newMode : Nat := 0o644
def privateMode : Nat := 0o600

/-- The greatest length of a name in bytes. -/
def maxName : Nat := 255

/-- What stands at a place; the places that walks start from are directories. -/
def node? (t : FileTree) (place : List String) : Option FileNode :=
  match place with
  | [] | ["/"] => some .directory
  | _ => t.nodes.lookup place

/-- The tree with something put at a place. -/
def put (t : FileTree) (place : List String) (node : FileNode) : FileTree :=
  { nodes := (place, node) :: t.nodes }

/-- The place that one more name leads to, from a directory. -/
def step (t : FileTree) (place : List String) (name : String) : Except FileFault (List String) :=
  if t.node? place ≠ some .directory then
    .error (if (t.node? place).isNone then .notFound else .notDirectory)
  else if maxName < Utf8.size name then .error .nameTooLong
  else if name = ".." ∧ place.getLast?.any (· ≠ "..") then .ok place.dropLast
  else .ok (place ++ [name])

/-- The place that a path leads to, whether or not something stands there. -/
def locate (t : FileTree) (path : String) : Except FileFault (List String) :=
  (Path.names path).foldlM t.step []

/-- Does something stand where a path leads? -/
def has (t : FileTree) (path : String) : Bool :=
  match t.locate path with
  | .ok place => (t.node? place).isSome
  | .error _ => false

/-- The contents of the file that a path leads to. -/
def read (t : FileTree) (path : String) : Except FileFault Bytes := do
  match t.node? (← t.locate path) with
  | some (.file contents _) => return contents
  | some .directory => throw .isDirectory
  | none => throw .notFound

/-- The text in the file that a path leads to. -/
def readText (t : FileTree) (path : String) : Except FileFault String := do
  match Utf8.decode? (← t.read path) with
  | some text => return text
  | none => throw .notText

/-- Writes a file, which is made if it is not there. -/
def write (t : FileTree) (path : String) (contents : Bytes) : Except FileFault FileTree := do
  let place ← t.locate path
  match t.node? place with
  | some .directory => throw .isDirectory
  | some (.file _ mode) => return t.put place (.file contents mode)
  | none => return t.put place (.file contents newMode)

/-- Sets the access rights of a file. -/
def setMode (t : FileTree) (path : String) (mode : Nat) : Except FileFault FileTree := do
  let place ← t.locate path
  match t.node? place with
  | some (.file contents _) => return t.put place (.file contents mode)
  | some .directory => return t
  | none => throw .notFound

/-- Makes the directories on a way, each where the one before it stands; what was
made stays when a later one cannot be. -/
def createFrom (t : FileTree) (place : List String) :
    List String → Except FileFault Unit × FileTree
  | [] => (.ok (), t)
  | name :: names =>
    match t.step place name with
    | .error fault => (.error fault, t)
    | .ok next =>
      match t.node? next with
      | some .directory => t.createFrom next names
      | some (.file _ _) =>
        (.error (if names.isEmpty then .alreadyExists else .notDirectory), t)
      | none => (t.put next .directory).createFrom next names

/-- Makes the directory that a path leads to, and those on the way. -/
def createDirectories (t : FileTree) (path : String) : Except FileFault Unit × FileTree :=
  t.createFrom [] (Path.names path)

/-- The places that files stand at. -/
def files (t : FileTree) : List (List String) :=
  (t.nodes.map (·.1)).eraseDups.filter fun place =>
    match t.node? place with
    | some (.file _ _) => true
    | _ => false

end FileTree

end Enrollment
