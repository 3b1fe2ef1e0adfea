/-
Reading the options of a command.

An option has a long name and one value, which follows it or is attached to it
by an equals sign.  What is not given may come from a variable of the
environment.  A value that follows its option is looked at when the next option
that exists is met, or at the end; so an argument that does not exist is told
before the value just in front of it is found wrong.
-/

namespace Enrollment.CommandLine

/-- Why no command is carried out. -/
inductive Refusal where
  -- asked for
  | help
  | version
  -- commands
  | noCommand
  | unknownCommand
  -- options
  | unknownArgument
  | missingOption
  | repeatedOption
  -- values
  | missingValue
  | extraValue
  | wrongValue
  deriving Repr, DecidableEq

/-- The status that a program ends with; help and version are no failures. -/
def Refusal.exitCode : Refusal → Nat
  | .help | .version => 0
  | _ => 2

/-- An option, which stores its value in a record. -/
structure Parameter (σ : Type) where
  name : String
  /-- The variable that stands in for it. -/
  variableName : Option String := none
  /-- Has it to be given? -/
  required : Bool := false
  /-- Can it be given more than once? -/
  repeats : Bool := false
  store : String → σ → Except Refusal σ

/-- The options of a command, with the record before any is read; what it holds of
an option that has to be given does not matter. -/
structure Options (σ : Type) where
  start : σ
  parameters : List (Parameter σ)

/-- Reads a value and puts it into a record. -/
def storing {α σ : Type} (value : String → Except Refusal α) (put : α → σ → σ) (text : String)
    (record : σ) : Except Refusal σ :=
  (value text).map (put · record)

namespace Options

variable {σ : Type}

/-- What was read of a command line. -/
structure Progress (σ : Type) where
  values : σ
  /-- The names of the options given. -/
  given : List String := []
  /-- The option that was met last, with its value if that has followed. -/
  pending : Option (Parameter σ × Option String) := none

/-- Stores the value of an option. -/
def Progress.store (p : Progress σ) (o : Parameter σ) (value : String) :
    Except Refusal (Progress σ) := do
  if p.given.contains o.name && !o.repeats then throw .repeatedOption
  return { p with values := ← o.store value p.values, given := o.name :: p.given }

/-- Stores the value of the option that was met last. -/
def Progress.settle (p : Progress σ) : Except Refusal (Progress σ) :=
  match p.pending with
  | none => .ok p
  | some (_, none) => .error .missingValue
  | some (o, some value) => { p with pending := none }.store o value

-- ============================================================== arguments

/-- What an argument is by its form. -/
inductive Argument where
  /-- Two hyphens alone. -/
  | terminator
  /-- A long name, with the value attached to it. -/
  | long (name : String) (value : Option String)
  /-- A letter behind one hyphen. -/
  | short (letter : Char)
  | plain (text : String)
  deriving Repr, DecidableEq

/-- A long name and what is attached to it by an equals sign. -/
def splitLong (cs : List Char) : Argument :=
  let name := String.ofList (cs.takeWhile (· ≠ '='))
  match cs.dropWhile (· ≠ '=') with
  | [] => .long name none
  | _ :: value => .long name (some (String.ofList value))

/-- The form of an argument. -/
def Argument.of (text : String) : Argument :=
  match text.toList with
  | ['-', '-'] => .terminator
  | '-' :: '-' :: cs => splitLong cs
  | '-' :: letter :: _ => .short letter
  | _ => .plain text

-- ================================================================ reading

/-- Reads the arguments that follow a command. -/
def readArguments (spec : Options σ) : List String → Progress σ → Except Refusal (Progress σ)
  | [], p => p.settle
  | argument :: rest, p =>
    match Argument.of argument with
    | .terminator => if rest.isEmpty then p.settle else .error .unknownArgument
    | .long name value =>
      if name = "help" then
        if value.isSome then .error .extraValue else p.settle.bind fun _ => .error .help
      else
        match spec.parameters.find? (·.name == name), value with
        | none, _ => .error .unknownArgument
        | some o, none =>
          p.settle.bind fun p => readArguments spec rest { p with pending := some (o, none) }
        | some o, some value =>
          p.settle.bind fun p => (p.store o value).bind (readArguments spec rest)
    | .short letter =>
      if letter = 'h' then p.settle.bind fun _ => .error .help else .error .unknownArgument
    | .plain text =>
      match p.pending with
      | some (o, none) => readArguments spec rest { p with pending := some (o, some text) }
      | _ => .error .unknownArgument

/-- Takes from the environment what was not given. -/
def readEnvironment (environment : List (String × String)) :
    List (Parameter σ) → Progress σ → Except Refusal (Progress σ)
  | [], p => .ok p
  | o :: rest, p =>
    let variableName := if p.given.contains o.name then none else o.variableName
    match variableName.bind (List.lookup · environment) with
    | none => readEnvironment environment rest p
    | some value => (p.store o value).bind (readEnvironment environment rest)

/-- Is every option there that has to be given? -/
def isComplete (spec : Options σ) (p : Progress σ) : Bool :=
  spec.parameters.all fun o => !o.required || p.given.contains o.name

/-- The values of all options, from the arguments and the environment. -/
def read (spec : Options σ) (environment : List (String × String)) (arguments : List String) :
    Except Refusal σ := do
  let p ← readArguments spec arguments { values := spec.start }
  let p ← readEnvironment environment spec.parameters p
  if !spec.isComplete p then throw .missingOption
  return p.values

end Options

end Enrollment.CommandLine
