/-
This file reads the arguments of the command line. Arguments are taken from left to right. An option
that needs a value, and the path of the executable, are first set aside and looked at more closely
when the next option or value begins or the arguments end; a mistake that can be seen at once, such
as an unknown option, therefore wins over a bad value before it.

The switches for verbosity and for the log format may stand on either side of the command. The
budget and the size of memory may also come from the environment, whose values are looked at only
where the command line is silent.
-/

import Hart.Simulator.Basic

namespace Hart.CommandLine

/-- Why the arguments do not make an invocation. Two of the reasons are requests for information. -/
inductive UsageError where
  | helpRequested
  | versionRequested
  /-- There are no arguments at all. -/
  | nothingGiven
  /-- There are options but no command. -/
  | missingCommand
  | invalidCommand
  /-- The path of the executable is missing. -/
  | missingPath
  | unknownArgument
  /-- An option stands without its value, or the path is empty. -/
  | missingValue
  /-- A value is not a number below two to the power of 64. -/
  | invalidNumber
  /-- An option that may be given once is repeated. -/
  | repeatedOption
  /-- A switch is given a value. -/
  | unexpectedValue
deriving DecidableEq, Repr

namespace UsageError

/-- Requests for information succeed. -/
def exitCode : UsageError → Nat
  | helpRequested | versionRequested => 0
  | _ => 2

/-- The answer to a request for the version. -/
def versionText : String :=
  "simrv 0.1.0\n"

/-- The answer to a request for help. -/
def helpText : String :=
  "Usage: simrv [-v] [--log-json] run [--max-steps N] [--memory-size N] [--trace-regs] ELF\n"
    ++ "       simrv [-v] [--log-json] dump ELF\n"

/-- The text shown for the reason. -/
def message : UsageError → String
  | helpRequested | nothingGiven => helpText
  | versionRequested => versionText
  | missingCommand => "error: a command is required\n"
  | invalidCommand => "error: unknown command\n"
  | missingPath => "error: the path of an executable is required\n"
  | unknownArgument => "error: unexpected argument\n"
  | missingValue => "error: a value is required\n"
  | invalidNumber => "error: a value is not a number below 2^64\n"
  | repeatedOption => "error: an option cannot be used more than once\n"
  | unexpectedValue => "error: an option takes no value\n"

end UsageError

/-- Values that stand in for options that are not given. -/
structure Environment where
  maxSteps : Option String := none
  memorySize : Option String := none

/-- What to run, and how. -/
structure RunOptions where
  path : String
  configuration : Configuration := {}
  traceRegisters : Bool := false
deriving DecidableEq

/-- What to do. -/
inductive Command where
  /-- Execute a program. -/
  | run (options : RunOptions)
  /-- List the code of a program. -/
  | dump (path : String)
deriving DecidableEq

/-- A command with the options that every command has. -/
structure Invocation where
  command : Command
  verbosity : Nat := 0
  logJson : Bool := false
deriving DecidableEq

/-! ### What may be given -/

/-- Options without a value. -/
inductive Switch where
  | verbose | logJson | traceRegisters | help | version
deriving DecidableEq

/-- Options with a value. -/
inductive Setting where
  | maxSteps | memorySize
deriving DecidableEq

/-- The part of the command line that is being read. -/
inductive Scope where
  /-- Before the command. -/
  | top
  | run
  | dump
deriving DecidableEq

/-- The meaning of an option. -/
inductive Meaning where
  | switch (switch : Switch)
  | setting (setting : Setting)

/-- The option with a long name. -/
def Scope.long? (scope : Scope) (name : String) : Option Meaning :=
  match name, scope with
  | "verbose", _ => some (.switch .verbose)
  | "log-json", _ => some (.switch .logJson)
  | "help", _ => some (.switch .help)
  | "version", .top => some (.switch .version)
  | "trace-regs", .run => some (.switch .traceRegisters)
  | "max-steps", .run => some (.setting .maxSteps)
  | "memory-size", .run => some (.setting .memorySize)
  | _, _ => none

/-- The switch with a short name. -/
def Scope.short? (scope : Scope) (name : Char) : Option Switch :=
  match name, scope with
  | 'v', _ => some .verbose
  | 'h', _ => some .help
  | 'V', .top => some .version
  | _, _ => none

/-- The shape of an argument. -/
inductive Shape where
  /-- Two dashes alone: what follows is no option. -/
  | terminator
  /-- Two dashes and a name, and possibly a value after an equals sign. -/
  | long (name : String) (value : Option String)
  /-- A dash and one or more short names. -/
  | short (names : List Char)
  /-- Anything else, a dash alone included. -/
  | plain

/-- The shape of an argument before any terminator. -/
def Shape.of (argument : String) : Shape :=
  match argument.toList with
  | ['-', '-'] => .terminator
  | '-' :: '-' :: rest =>
    let name := String.ofList (rest.takeWhile (· != '='))
    match rest.dropWhile (· != '=') with
    | _ :: value => .long name (some (String.ofList value))
    | [] => .long name none
  | '-' :: name :: names => .short (name :: names)
  | _ => .plain

/-! ### What has been given -/

/-- A value that has been set aside. -/
inductive Pending where
  | nothing
  | setting (setting : Setting) (value : Option String)
  | path (value : String)

/-- What has been read in one scope. -/
structure Given where
  verbosity : Nat := 0
  logJson : Bool := false
  traceRegisters : Bool := false
  maxSteps : Option Nat := none
  memorySize : Option Nat := none
  path : Option String := none
  pending : Pending := .nothing

/-- A number below two to the power of 64. -/
def number? (text : String) : Option Nat :=
  (Text.readDecimal? text).filter fun value => value < 0x10000000000000000

/-- How often `-v` is counted at most. -/
def verbosityLimit : Nat := 255

namespace Given

/-- What has been given for a setting. -/
def setting? (given : Given) : Setting → Option Nat
  | .maxSteps => given.maxSteps
  | .memorySize => given.memorySize

/-- Takes the value of a setting. -/
def set (given : Given) (setting : Setting) (value : String) : Except UsageError Given :=
  if (given.setting? setting).isSome then .error .repeatedOption
  else
    match number? value, setting with
    | none, _ => .error .invalidNumber
    | some number, .maxSteps => .ok { given with maxSteps := some number }
    | some number, .memorySize => .ok { given with memorySize := some number }

/-- Looks at the value that has been set aside. -/
def settle (given : Given) : Except UsageError Given :=
  let settled := { given with pending := .nothing }
  match given.pending with
  | .nothing => .ok settled
  | .setting _ none => .error .missingValue
  | .setting setting (some value) => settled.set setting value
  | .path value =>
    if value == "" then .error .missingValue else .ok { settled with path := some value }

/-- Takes a switch. -/
def flip (given : Given) : Switch → Except UsageError Given
  | .verbose => .ok { given with verbosity := min (given.verbosity + 1) verbosityLimit }
  | .logJson =>
    if given.logJson then .error .repeatedOption else .ok { given with logJson := true }
  | .traceRegisters =>
    if given.traceRegisters then .error .repeatedOption
    else .ok { given with traceRegisters := true }
  | .help => .error .helpRequested
  | .version => .error .versionRequested

/-- Takes a switch after what stands before it. -/
def react (given : Given) (switch : Switch) : Except UsageError Given :=
  match given.settle with
  | .ok given => given.flip switch
  | .error error => .error error

/-- Takes short names one by one. -/
def shorts (scope : Scope) (given : Given) : List Char → Except UsageError Given
  | [] => .ok given
  | name :: names =>
    match scope.short? name with
    | none => .error .unknownArgument
    | some switch =>
      match given.react switch with
      | .ok given => shorts scope given names
      | .error error => .error error

/-- Takes a long name with what is attached to it. -/
def long (scope : Scope) (given : Given) (name : String) (value : Option String) :
    Except UsageError Given :=
  match scope.long? name, value with
  | none, _ => .error .unknownArgument
  | some (.switch _), some _ => .error .unexpectedValue
  | some (.switch switch), none => given.react switch
  | some (.setting setting), value =>
    match given.settle, value with
    | .error error, _ => .error error
    | .ok given, some value => given.set setting value
    | .ok given, none => .ok { given with pending := .setting setting none }

/-- Whether a path has been given, looked at or not. -/
def hasPath (given : Given) : Bool :=
  match given.pending with
  | .path _ => true
  | _ => given.path.isSome

/-- Takes the path of the executable. There can be only one. -/
def operand (given : Given) (value : String) : Except UsageError Given :=
  if given.hasPath then .error .unknownArgument
  else
    match given.settle with
    | .ok given => .ok { given with pending := .path value }
    | .error error => .error error

/-- Takes an argument that is no option: the value of an option that still needs one, or the path of
the executable. -/
def plain (given : Given) (argument : String) : Except UsageError Given :=
  match given.pending with
  | .setting setting none =>
    .ok { given with pending := .setting setting (some argument) }
  | _ => given.operand argument

/-- Takes arguments after a terminator. -/
def operands (given : Given) : List String → Except UsageError Given
  | [] => .ok given
  | argument :: rest =>
    match given.operand argument with
    | .ok given => operands given rest
    | .error error => .error error

/-- Reads the arguments of a command. -/
def read (scope : Scope) (given : Given) : List String → Except UsageError Given
  | [] => given.settle
  | argument :: rest =>
    match Shape.of argument with
    | .terminator =>
      match operands given rest with
      | .ok given => given.settle
      | .error error => .error error
    | .long name value =>
      match long scope given name value with
      | .ok given => read scope given rest
      | .error error => .error error
    | .short names =>
      match shorts scope given names with
      | .ok given => read scope given rest
      | .error error => .error error
    | .plain =>
      match given.plain argument with
      | .ok given => read scope given rest
      | .error error => .error error

/-- The options that every command has, from both sides of the command. The count after the command
replaces the one before it. -/
def invocation (top inner : Given) (command : Command) : Invocation where
  command
  verbosity := if inner.verbosity = 0 then top.verbosity else inner.verbosity
  logJson := top.logJson || inner.logJson

end Given

/-! ### Commands -/

/-- The value of a setting: from the command line, else from the environment, else the default. -/
def resolve (given : Option Nat) (environment : Option String) (default : Nat) :
    Except UsageError Nat :=
  match given, environment with
  | some value, _ => .ok value
  | none, none => .ok default
  | none, some text =>
    match number? text with
    | some value => .ok value
    | none => .error .invalidNumber

/-- The command to execute a program. Values from the environment are looked at before the path is
missed. -/
def runCommand (environment : Environment) (given : Given) : Except UsageError Command :=
  let defaults : Configuration := {}
  match resolve given.maxSteps environment.maxSteps defaults.maxSteps,
    resolve given.memorySize environment.memorySize defaults.memorySize, given.path with
  | .error error, _, _ => .error error
  | _, .error error, _ => .error error
  | _, _, none => .error .missingPath
  | .ok maxSteps, .ok memorySize, some path =>
    .ok (.run ⟨path, ⟨memorySize, maxSteps⟩, given.traceRegisters⟩)

/-- The command to list a program. -/
def dumpCommand (given : Given) : Except UsageError Command :=
  match given.path with
  | some path => .ok (.dump path)
  | none => .error .missingPath

/-- The names of the commands. The last one is a request for help about the commands named after
it. -/
def commandNames : List String :=
  ["run", "dump", "help"]

/-- The answer to a request for help about a command: only the commands themselves can be asked
about, and they have no commands of their own. -/
def helpAbout : List String → UsageError
  | [] => .helpRequested
  | [name] => if commandNames.contains name then .helpRequested else .invalidCommand
  | _ => .invalidCommand

/-- Reads the arguments of a command that has been named. -/
def readCommand (environment : Environment) (top : Given) (name : String)
    (arguments : List String) : Except UsageError Invocation :=
  match name with
  | "run" =>
    match Given.read .run {} arguments with
    | .error error => .error error
    | .ok given => (runCommand environment given).map (top.invocation given)
  | "dump" =>
    match Given.read .dump {} arguments with
    | .error error => .error error
    | .ok given => (dumpCommand given).map (top.invocation given)
  | "help" => .error (helpAbout arguments)
  | _ => .error .invalidCommand

/-- What arguments after a terminator amount to where a command is expected. -/
def withoutCommand (anything : Bool) : List String → UsageError
  | [] => if anything then .missingCommand else .nothingGiven
  | argument :: _ =>
    if commandNames.contains argument then .unknownArgument else .invalidCommand

/-- Reads arguments up to the command. -/
def readTop (environment : Environment) (anything : Bool) (top : Given) :
    List String → Except UsageError Invocation
  | [] => .error (withoutCommand anything [])
  | argument :: rest =>
    match Shape.of argument with
    | .terminator => .error (withoutCommand anything rest)
    | .long name value =>
      match Given.long .top top name value with
      | .ok top => readTop environment true top rest
      | .error error => .error error
    | .short names =>
      match Given.shorts .top top names with
      | .ok top => readTop environment true top rest
      | .error error => .error error
    | .plain => readCommand environment top argument rest

/-- The invocation that the arguments ask for. -/
def Invocation.ofArguments (arguments : List String) (environment : Environment) :
    Except UsageError Invocation :=
  readTop environment false {} arguments

end Hart.CommandLine
