/-
This file is the program itself: it reads the arguments, the environment and one file, and writes
what the report says. Output goes to standard output and the log to standard error. Nothing is
decided here.
-/

import Hart.CommandLine.Report

namespace Hart.CommandLine

/-- Whether the code of a failure is the given one. Some calls report codes negated. -/
def isCode (reported code : UInt32) : Bool :=
  reported == code || reported == 0 - code

/-- The reason behind a failure of the system to read a file. -/
def ReadError.ofSystem : IO.Error → ReadError
  | .noFileOrDirectory .. => .notFound
  | .inappropriateType _ code details =>
    if isCode code 20 then .notDirectory
    else if isCode code 21 then .isDirectory
    else .other details
  | error => .other (toString error)

/-- The contents of a file of the system. -/
def readFile (path : String) : IO (Except ReadError ByteArray) := do
  try return .ok (← IO.FS.readBinFile path)
  catch error => return .error (.ofSystem error)

/-- Writes what a command wrote. -/
def Output.write (stream : IO.FS.Stream) : Output → IO Unit
  | .bytes values => stream.write values.toByteArray
  | .lines values => values.forM stream.putStrLn

/-- Carries out an invocation. -/
def Invocation.perform (invocation : Invocation) : IO UInt32 := do
  let file ← readFile invocation.command.path
  let report := invocation.command.report (.ofVerbosity invocation.verbosity) file
  let errors ← IO.getStderr
  let written := if invocation.logJson then Record.object else Record.line
  report.journal.forM fun record => errors.putStrLn (written record)
  let output ← IO.getStdout
  report.output.write output
  output.flush
  match report.failure with
  | none => return 0
  | some failure =>
    errors.putStrLn ("Error: " ++ String.intercalate ": " failure.chain)
    return 1

end Hart.CommandLine

open Hart.CommandLine in
/-- The entry point of the program. -/
def main (arguments : List String) : IO UInt32 := do
  let environment : Environment :=
    ⟨← IO.getEnv "SIMRV_MAX_STEPS", ← IO.getEnv "SIMRV_MEMORY_SIZE"⟩
  match Invocation.ofArguments arguments environment with
  | .ok invocation => invocation.perform
  | .error error =>
    let stream ← if error.exitCode = 0 then IO.getStdout else IO.getStderr
    stream.putStr error.message
    return UInt32.ofNat error.exitCode
