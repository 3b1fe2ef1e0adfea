/-
The two programs, by the name they are called by.

A command works on a value that stands for the files it can come across.  They
are looked up before it runs, and what it changed is carried out afterwards.
Connections are not opened here: the host's program finds nobody to talk to,
and the authority's program can make an authority and check one, but not listen.
-/
import Enrollment.Command.Init
import Enrollment.Command.Request
import Enrollment.Command.Serve
import Enrollment.CommandLine.Program
import Enrollment.Crypto.Standard
import Std.Time.DateTime.Timestamp

namespace Enrollment.Main

open CommandLine

-- ================================================================== files

/-- What stands at a place, if anything does. -/
def nodeAt (place : List String) : IO (Option FileNode) := do
  try
    let path ← IO.FS.realPath (Path.ofNames place)
    if ← path.isDir then return some .directory
    if !(← path.pathExists) then return none
    return some (.file (← IO.FS.readBinFile path).toList FileTree.newMode)
  catch _ => return none

/-- The places on the way along names. -/
def placesOf (names : List String) : List (List String) :=
  (List.range names.length).map fun i => names.take (i + 1)

/-- Looks up what stands at paths and on the way to them. -/
def look (paths : List String) : IO FileTree := do
  let mut tree : FileTree := {}
  for place in (paths.flatMap fun path => placesOf (Path.names path)).eraseDups do
    if let some node ← nodeAt place then tree := tree.put place node
  return tree

/-- Carries out one change. -/
def perform (place : List String) : FileNode → IO Unit
  | .directory => IO.FS.createDir (Path.ofNames place)
  | .file contents mode => do
    let path := Path.ofNames place
    IO.FS.writeBinFile path (ByteArray.mk contents.toArray)
    if mode = FileTree.privateMode then
      IO.setAccessRights path ⟨{ read := true, write := true }, {}, {}⟩

/-- Carries out what changed from one tree to another. -/
def performAll (before after : FileTree) : IO Unit := do
  let changed := (after.nodes.take (after.nodes.length - before.nodes.length)).reverse
  for place in (changed.map (·.1)).eraseDups do
    if let some node := after.node? place then perform place node

-- =============================================================== commands

/-- Runs a job on the files at paths; its value is none when it failed. -/
def runJob {α : Type} (paths : List String) (job : Command.Job α) : IO (Option α) := do
  let files ← look paths
  let (result, machine) := job.runOn { files }
  for notice in machine.log do IO.eprintln notice.text
  performAll files machine.files
  match result with
  | .ok a => return some a
  | .error stop =>
    IO.eprintln ("Error: " ++ "\nCaused by: ".intercalate stop.chain)
    return none

/-- The point in time. -/
def now : IO Time.Instant := do
  let nanos := (← Std.Time.Timestamp.now).toNanosecondsSinceUnixEpoch.val
  return ⟨nanos / 1000000000, (nanos % 1000000000).toNat⟩

/-- Bytes drawn at random. -/
def draw : IO Bytes := do
  return (← IO.getRandomBytes 64).toList

/-- Runs a command. -/
def run : CommandLine.Command → IO Bool
  | .init o => do
    let paths := [Path.join o.outDir Command.authorityCertificateName,
      Path.join o.outDir Command.authorityKeyName]
    return (← runJob paths (Command.init o (← now) ⟨← draw, ← draw⟩)).isSome
  | .serve o => do
    let bind := fun _ => .error "connections are not supported"
    let job := Command.serve o.settings o.token o.cert o.key (← now) bind
    return (← runJob [o.cert, o.key] job).isSome
  | .request o => do
    let network := fun _ _ => .refused "connections are not supported"
    return (← runJob [o.outDir] (Command.request o network (← draw))).isSome

/-- What is shown instead of carrying out a command. -/
def explain (p : Program) : String :=
  "Commands: " ++ ", ".intercalate (p.commands.map (·.name) ++ [Program.helpCommand])

end Enrollment.Main

open Enrollment CommandLine in
/-- Runs the program that was called. -/
def main (arguments : List String) : IO UInt32 := do
  let name := (← IO.appPath).fileStem.getD ""
  let program : Program := if name.endsWith "server" then .authority else .host
  let environment ← program.environmentNames.filterMapM fun variableName => do
    return (← IO.getEnv variableName).map (variableName, ·)
  match program.read environment arguments with
  | .ok command => return if ← Main.run command then 0 else 1
  | .error refusal =>
    IO.eprintln (Main.explain program)
    return UInt32.ofNat refusal.exitCode
