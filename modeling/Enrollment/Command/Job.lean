/-
What commands work with: the files and the log of the machine they run on, and
a way to fail that tells what was being done.

What a command did before it failed stays done.
-/
import Enrollment.FileTree
import Enrollment.Service.Server

namespace Enrollment.Command

-- ================================================================ failing

/-- What a command is at when it fails. -/
inductive Task where
  | createDirectory (path : String)
  | keepFile (path : String)
  | write (path : String)
  | restrict (path : String)
  | read (path : String)
  | generateAuthority
  | loadAuthority
  | readToken
  | configureServer
  | startServer
  | stopServer
  | requestFrom (host : String)
  deriving Repr, DecidableEq

/-- The complaint of a command that fails at a task. -/
def Task.complaint : Task → String
  | .createDirectory path => "failed to create " ++ path
  | .keepFile path => path ++ " already exists; refusing to overwrite"
  | .write path => "failed to write " ++ path
  | .restrict path => "failed to restrict " ++ path
  | .read path => "failed to read " ++ path
  | .generateAuthority => "failed to generate CA"
  | .loadAuthority => "failed to load CA identity"
  | .readToken => "invalid token"
  | .configureServer => "failed to configure server"
  | .startServer => "failed to start server"
  | .stopServer => "failed to stop server"
  | .requestFrom host => "certificate request to " ++ host ++ " failed"

/-- What made a task fail. -/
inductive Cause where
  /-- Nothing beyond the complaint. -/
  | itself
  | file (fault : FileFault)
  | enrollment (failure : Failure)
  | service (fault : Service.Fault)
  deriving Repr, DecidableEq

/-- The texts of a cause and of what lies behind it. -/
def Cause.texts : Cause → List String
  | .itself => []
  | .file fault => [fault.message]
  | .enrollment failure => failure.message :: failure.causes
  | .service fault => fault.message :: fault.causes

/-- How a command ends without having done its work. -/
inductive Stop where
  | failed (task : Task) (cause : Cause)
  | crashed (crash : Crash)
  deriving Repr, DecidableEq

/-- The complaint of a failed command, and the causes behind it. -/
def Stop.chain : Stop → List String
  | .failed task cause => task.complaint :: cause.texts
  | .crashed _ => []

-- ================================================================ working

/-- The machine that a command runs on. -/
structure Machine where
  files : FileTree
  /-- What was noted, in order. -/
  log : List Notice := []
  deriving Repr, DecidableEq

/-- The work of a command. -/
abbrev Job := ExceptT Stop (StateM Machine)

namespace Job

/-- Runs a job on a machine. -/
def runOn {α : Type} (job : Job α) (m : Machine) : Except Stop α × Machine :=
  (ExceptT.run job).run m

/-- Notes something. -/
def note (notices : List Notice) : Job Unit :=
  modify fun m => { m with log := m.log ++ notices }

/-- Fails at a task. -/
def fail {α : Type} (task : Task) (cause : Cause) : Job α :=
  throw (.failed task cause)

/-- The value of a result, which a task depends on. -/
def expect {ε α : Type} (task : Task) (cause : ε → Cause) : Except ε α → Job α
  | .ok a => return a
  | .error e => fail task (cause e)

/-- The value of a result that may be a breakdown. -/
def expectOrCrash {α : Type} (task : Task) : Except Halt α → Job α
  | .ok a => return a
  | .error (.failed failure) => fail task (.enrollment failure)
  | .error (.crashed crash) => throw (.crashed crash)

/-- Changes the files, or fails at a task and leaves them. -/
def change (task : Task) (f : FileTree → Except FileFault FileTree) : Job Unit := do
  let m ← get
  let files ← expect task .file (f m.files)
  set { m with files }

/-- Makes a directory and those on the way to it. -/
def createDirectories (path : String) : Job Unit := do
  let m ← get
  let (result, files) := m.files.createDirectories path
  set { m with files }
  expect (.createDirectory path) .file result

/-- Reads the text in a file. -/
def readText (path : String) : Job String := do
  expect (.read path) .file ((← get).files.readText path)

/-- Writes a text to a file. -/
def write (path text : String) : Job Unit :=
  change (.write path) fun t => t.write path (Utf8.encode text)

/-- Writes a text to a file that is for its owner alone. -/
def writePrivate (path text : String) : Job Unit := do
  write path text
  change (.restrict path) fun t => t.setMode path FileTree.privateMode

end Job

end Enrollment.Command
