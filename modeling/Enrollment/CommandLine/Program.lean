/-
The two programs and their commands.

The authority's program makes an authority and serves it; the host's program
requests a certificate.  A program without an argument, and any of the usual
ways to ask for help, explain the program instead.
-/
import Enrollment.CommandLine.Init
import Enrollment.CommandLine.Request
import Enrollment.CommandLine.Serve

namespace Enrollment.CommandLine

/-- A command with its options. -/
inductive Command where
  | init (options : InitOptions)
  | serve (options : ServeOptions)
  | request (options : RequestOptions)
  deriving Repr, DecidableEq

/-- A reader of the options of a command, from the environment and the arguments. -/
abbrev CommandReader := List (String × String) → List String → Except Refusal Command

/-- A command with its name and the variables that it looks at. -/
structure NamedCommand where
  name : String
  environmentNames : List String
  read : CommandReader

/-- The command of a name, with its options. -/
def commandOf {σ : Type} (name : String) (spec : Options σ) (make : σ → Command) :
    NamedCommand where
  name := name
  environmentNames := spec.parameters.filterMap (·.variableName)
  read := fun environment arguments => (spec.read environment arguments).map make

/-- The programs. -/
inductive Program where
  /-- The authority's program. -/
  | authority
  /-- The host's program. -/
  | host
  deriving Repr, DecidableEq

namespace Program

/-- The commands of a program. -/
def commands : Program → List NamedCommand
  | .authority => [
      commandOf "init" InitOptions.spec .init,
      commandOf "serve" ServeOptions.spec .serve]
  | .host => [commandOf "request" RequestOptions.spec .request]

/-- The variables that the commands of a program look at. -/
def environmentNames (p : Program) : List String :=
  p.commands.flatMap (·.environmentNames)

/-- The command that explains the others. -/
def helpCommand : String := "help"

/-- Has the program a command of that name? -/
def hasCommand (p : Program) (name : String) : Bool :=
  name == helpCommand || p.commands.any (·.name == name)

/-- What asking for help about something comes to; there is nothing below a command. -/
def readHelp (p : Program) : List String → Refusal
  | [] => .help
  | [name] => if p.hasCommand name then .help else .unknownCommand
  | _ => .unknownCommand

/-- What an argument that is no command comes to. -/
def refuse (p : Program) (argument : String) (rest : List String) : Refusal :=
  match Options.Argument.of argument with
  | .terminator =>
    match rest with
    | [] => .noCommand
    | next :: _ => if p.hasCommand next then .unknownArgument else .unknownCommand
  | .long "help" none | .short 'h' => .help
  | .long "version" none | .short 'V' => .version
  | .long "help" (some _) | .long "version" (some _) => .extraValue
  | .long _ _ | .short _ => .unknownArgument
  | .plain _ => .unknownCommand

/-- The command that the arguments and the environment spell. -/
def read (p : Program) (environment : List (String × String)) :
    List String → Except Refusal Command
  | [] => .error .noCommand
  | argument :: rest =>
    match p.commands.find? (·.name == argument) with
    | some command => command.read environment rest
    | none =>
      if argument = helpCommand then .error (p.readHelp rest)
      else .error (p.refuse argument rest)

end Program

end Enrollment.CommandLine
