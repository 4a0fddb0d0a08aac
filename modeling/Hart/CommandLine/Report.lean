/-
This file carries out commands. What a command does is worked out as a report: how it ended, what it
wrote to standard output, and its log. Files are reached only through the result of reading them, so
a report is a function of the command and the contents of the file.
-/

import Hart.CommandLine.Arguments
import Hart.CommandLine.Files
import Hart.CommandLine.Traced
import Hart.Listing

namespace Hart.CommandLine

open Hart.Text

/-- Why a command failed. -/
inductive Failure where
  /-- The file could not be read. -/
  | unreadable (path : String) (error : ReadError)
  /-- The program could not be loaded. -/
  | unloadable (path : String) (error : LoadError)
  /-- The file is no executable that can be listed. -/
  | unparsable (path : String) (error : LoadError)
  /-- The program trapped. -/
  | trapped (steps : Nat) (pc : UInt64) (trap : Trap)
deriving DecidableEq

/-- The explanation of a failure, from the outermost step to the cause. -/
def Failure.chain : Failure → List String
  | unreadable path error => ["Failed to read " ++ path, error.message]
  | unloadable path error => ["Failed to load " ++ path, error.message]
  | unparsable path error => ["Failed to parse " ++ path, error.message]
  | trapped steps pc trap =>
    ["trap after " ++ steps.repr ++ " steps at pc " ++ hexLiteral pc.toNat ++ ": " ++ trap.message]

/-- What a command wrote to standard output. -/
inductive Output where
  /-- The bytes that a program sent to the console. -/
  | bytes (bytes : List UInt8)
  /-- The lines of a listing. -/
  | lines (lines : List String)
deriving DecidableEq

/-- What came of a command. -/
structure Report where
  failure : Option Failure := none
  output : Output
  journal : Journal := #[]
deriving DecidableEq

/-- Starts a simulator over with the program in a file, given the result of reading it. -/
def loadFile (simulator : Simulator) (path : String) (file : Except ReadError ByteArray) :
    Except Failure Unit × Simulator :=
  match file with
  | .error error => (.error (.unreadable path error), simulator)
  | .ok contents =>
    match simulator.load contents with
    | (.ok _, simulator) => (.ok (), simulator)
    | (.error error, simulator) => (.error (.unloadable path error), simulator)

/-- The bytes that a simulator has sent to its sink. -/
def outputBytes (simulator : Simulator) : List UInt8 :=
  match simulator.machine.sink with
  | some sink => sink.received.toList.map (·.byte)
  | none => []

/-- A run to completion, traced or plain, with its records. -/
def runRecorded (threshold : Level) (options : RunOptions) (journal : Journal)
    (simulator : Simulator) : Summary × Simulator × Journal :=
  if options.traceRegisters then runTraced threshold journal simulator
  else
    let executed := Journal.executed threshold simulator simulator.configuration.maxSteps
    match simulator.runToCompletion with
    | (summary, simulator) => (summary, simulator, journal.noteRun threshold executed summary)

/-- What is recorded about the end of a run that did not trap. -/
def endMessage (options : RunOptions) (summary : Summary) : String :=
  let pc := hexLiteral summary.pc.toNat
  match summary.reason with
  | .stepLimit =>
    "step limit of " ++ options.configuration.maxSteps.repr ++ " reached at pc " ++ pc
  | _ => "program halted after " ++ summary.steps.repr ++ " steps at pc " ++ pc

/-- Records the image that a file holds, once it has been loaded. -/
def noteFile (threshold : Level) (file : Except ReadError ByteArray) (capacity : Nat) : Journal :=
  match file with
  | .ok contents =>
    match Image.load contents capacity with
    | .ok image => Journal.noteLoad threshold #[] image capacity
    | .error _ => #[]
  | .error _ => #[]

/-- Executes a program and reports on it. The sink is attached once the program is loaded. -/
def runReport (threshold : Level) (options : RunOptions) (file : Except ReadError ByteArray) :
    Report :=
  match loadFile (.new options.configuration) options.path file with
  | (.error failure, _) => { failure := some failure, output := .bytes [] }
  | (.ok _, simulator) =>
    let simulator := simulator.attachSink
    let journal := (noteFile threshold file simulator.machine.capacity).note threshold .info
      ("running " ++ options.path ++ " from pc " ++ hexLiteral simulator.pc.toNat)
    match runRecorded threshold options journal simulator with
    | (summary, simulator, journal) =>
      let output := Output.bytes (outputBytes simulator)
      match summary.reason with
      | .trapped trap =>
        { failure := some (.trapped summary.steps summary.pc trap), output, journal }
      | _ => { output, journal := journal.note threshold .info (endMessage options summary) }

/-- The first line of a listing. -/
def imageLine (image : Image) : String :=
  "entry " ++ hexLiteral image.entry.toNat ++ ", .text at " ++ hexLiteral image.address.toNat
    ++ " (" ++ image.code.size.repr ++ " bytes)"

/-- Lists a program. Nothing is recorded about it. -/
def dumpReport (path : String) (file : Except ReadError ByteArray) : Report :=
  match file with
  | .error error => { failure := some (.unreadable path error), output := .lines [] }
  | .ok contents =>
    match Image.ofElf contents with
    | .error error => { failure := some (.unparsable path error), output := .lines [] }
    | .ok image =>
      { output :=
          .lines (imageLine image :: (disassemble image.code image.address).map (·.line)) }

/-- The file that a command reads. -/
def Command.path : Command → String
  | run options => options.path
  | dump path => path

/-- Carries out a command, given the result of reading its file. -/
def Command.report (command : Command) (threshold : Level) (file : Except ReadError ByteArray) :
    Report :=
  match command with
  | run options => runReport threshold options file
  | dump path => dumpReport path file

end Hart.CommandLine
