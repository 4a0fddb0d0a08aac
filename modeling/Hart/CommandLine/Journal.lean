/-
This file defines the log. Records carry a level; a reader chooses the least severe level to see.
What is recorded about a run is worked out from the run itself: the instructions it executed, in
order, and how it ended. Keeping a log therefore never changes what a program does.
-/

import Hart.Simulator.Executed
import Hart.Instruction.Text
import Hart.Text.Quoted
import Hart.Text.Terminal

namespace Hart.CommandLine

/-- How severe a record is. -/
inductive Level where
  | trace | debug | info | warn
deriving DecidableEq, Repr

namespace Level

/-- Levels in rising order of severity. -/
def severity : Level → Nat
  | trace => 0 | debug => 1 | info => 2 | warn => 3

/-- Whether a reader who chose the first level sees records of the second. -/
def shows (threshold level : Level) : Bool :=
  threshold.severity ≤ level.severity

/-- The name that starts a log line. -/
def name : Level → String
  | trace => "TRACE" | debug => "DEBUG" | info => "INFO" | warn => "WARN"

/-- The level for a number of requests to be more verbose. -/
def ofVerbosity : Nat → Level
  | 0 => info
  | 1 => debug
  | _ => trace

end Level

/-- One line of the log. -/
structure Record where
  level : Level
  message : String
deriving DecidableEq

/-- The line as it is written. The message may contain the path of a file, and a path must not be
able to command the terminal that shows the log. -/
def Record.line (record : Record) : String :=
  record.level.name ++ " " ++ Text.inert record.message

/-- The record as an object with two fields, for readers that are programs. -/
def Record.object (record : Record) : String :=
  "\x7b\"level\":" ++ Text.quoted record.level.name ++ ",\"message\":" ++ Text.quoted record.message
    ++ "\x7d"

/-- The log, oldest record first. -/
abbrev Journal := Array Record

namespace Journal

/-- The lines of the log. A message with a line break in it takes up several. -/
def lines (journal : Journal) : List String :=
  journal.toList.flatMap fun record => Text.lines record.line

/-- The journal with a record that the reader may want to see. -/
def note (threshold : Level) (journal : Journal) (level : Level) (message : String) : Journal :=
  if threshold.shows level then journal.push ⟨level, message⟩ else journal

end Journal

open Hart.Text

/-- What is recorded about an executed instruction. -/
def stepMessage (instruction : Instruction) : String :=
  "0x" ++ hexPadded '0' 8 instruction.address.toUInt64.toNat ++ ": " ++ instruction.text

/-- What is recorded about an instruction that traps. -/
def trapMessage (pc : UInt64) (trap : Trap) : String :=
  "step trapped pc=" ++ decimal pc.toInt64.toInt ++ " trap=" ++ trap.message

/-- The name of a reason to stop other than a trap. -/
def reasonName : StopReason → String
  | .stepLimit => "StepLimit"
  | .stalled => "Stalled"
  | .trapped trap => trap.message

namespace Journal

/-- The executed instructions of a run, if the reader wants to see them. -/
def executed (threshold : Level) (simulator : Simulator) (budget : Nat) : Array Instruction :=
  if threshold.shows .trace then simulator.executed budget else #[]

/-- Records a run: the instructions that it executed, and how it ended. -/
def noteRun (threshold : Level) (journal : Journal) (executed : Array Instruction)
    (summary : Summary) : Journal :=
  let journal := executed.foldl
    (fun journal instruction => journal.note threshold .trace (stepMessage instruction)) journal
  match summary.reason with
  | .trapped trap =>
    (journal.note threshold .debug (trapMessage summary.pc trap)).note threshold .warn
      ("run stopped by trap: " ++ trap.message ++ " steps=" ++ summary.steps.repr)
  | reason =>
    journal.note threshold .debug
      ("run finished at pc " ++ hexLiteral summary.pc.toNat ++ " steps=" ++ summary.steps.repr
        ++ " reason=" ++ reasonName reason)

/-- Records what loading an image reports. -/
def noteLoad (threshold : Level) (journal : Journal) (image : Image) (capacity : Nat) : Journal :=
  let size := image.code.size.repr
  let address := hexLiteral image.address.toNat
  let entry := hexLiteral image.entry.toNat
  (journal.note threshold .debug
      (s!"loaded .text: {size} bytes at {address}, entry {entry} capacity=" ++ capacity.repr)).note
    threshold .debug s!"installed .text: {size} bytes at {address}, pc {entry}"

end Journal

end Hart.CommandLine
