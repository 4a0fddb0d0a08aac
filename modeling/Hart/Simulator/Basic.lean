/-
This file defines the simulator: a machine with its configuration and a count of the instructions it
has executed. Loading a program starts from a clean machine; a load that fails changes nothing. The
sink stays attached through all of it.
-/

import Hart.Elf.Load
import Hart.Machine.Step

namespace Hart

/-- How a simulator is set up. -/
structure Configuration where
  /-- The size of memory in bytes. -/
  memorySize : Nat := 0x100000
  /-- How many instructions a run to completion may execute. -/
  maxSteps : Nat := 1000000
deriving DecidableEq

/-- A machine with its configuration. -/
structure Simulator where
  configuration : Configuration
  machine : Machine
  /-- How many instructions were executed since the last load or reset. -/
  steps : Nat := 0

namespace Simulator

/-- A simulator with all memory zero. -/
def new (configuration : Configuration) : Simulator where
  configuration
  machine := { memory := Bytes.zeros configuration.memorySize }

/-- The program counter as an address. -/
def pc (simulator : Simulator) : UInt64 :=
  simulator.machine.pc.toUInt64

/-- The value of a register, if there is one with that number. -/
def register? (simulator : Simulator) (index : Nat) : Option UInt64 :=
  simulator.machine.registers[index]?

/-- Clears memory, registers, the program counter and the count. -/
def reset (simulator : Simulator) : Simulator :=
  { simulator with
    machine :=
      { memory := Bytes.zeros simulator.machine.capacity, sink := simulator.machine.sink }
    steps := 0 }

/-- Attaches a fresh sink in place of the one before. -/
def attachSink (simulator : Simulator) : Simulator :=
  { simulator with machine := simulator.machine.attachSink }

/-- Starts over with an image in memory. The image is checked before anything is cleared. -/
def loadImage (simulator : Simulator) (image : Image) : Except LoadError Unit × Simulator :=
  match image.check simulator.machine.capacity with
  | .ok _ =>
    let simulator := simulator.reset
    match simulator.machine.install image with
    | (result, machine) => (result, { simulator with machine })
  | .error error => (.error error, simulator)

/-- Starts over with the program in an executable file. -/
def load (simulator : Simulator) (file : ByteArray) : Except LoadError Unit × Simulator :=
  match Image.load file simulator.machine.capacity with
  | .ok image => simulator.loadImage image
  | .error error => (.error error, simulator)

/-- The instruction at the program counter. -/
def current (simulator : Simulator) : Instruction :=
  simulator.machine.fetch

/-- Executes one instruction. Only an instruction that was executed counts. -/
def step (simulator : Simulator) : Outcome × Simulator :=
  match simulator.machine.step with
  | (.continued, machine) =>
    (.continued, { simulator with machine, steps := simulator.steps + 1 })
  | (.trapped trap, machine) => (.trapped trap, { simulator with machine })

theorem outcome_step (simulator : Simulator) :
    simulator.step.1 = simulator.machine.step.1 := by
  unfold step
  cases simulator.machine.step with
  | mk outcome machine => cases outcome <;> rfl

theorem machine_step (simulator : Simulator) :
    simulator.step.2.machine = simulator.machine.step.2 := by
  unfold step
  cases simulator.machine.step with
  | mk outcome machine => cases outcome <;> rfl

end Simulator

end Hart
