/-
This file says what a host may ask of a simulator, in any order and as often as it likes, and proves
what all of it leaves alone: the configuration, and the size of memory. Every capacity that is ever
checked is therefore the one that the simulator was made with.
-/

import Hart.CommandLine.Report
import Hart.Proofs.Effects
import Hart.Proofs.Installing

namespace Hart

/-! ### What stays the same -/

namespace Machine

variable (machine : Machine) (instruction : Instruction)

theorem capacity_apply (effect : Effect) : (machine.apply effect).capacity = machine.capacity := by
  cases effect with
  | write write => exact machine.capacity_commit write
  | _ => rfl

theorem capacity_advance : (machine.advance instruction).capacity = machine.capacity := by
  unfold advance
  by_cases jumps : instruction.isJump
  · rw [if_pos jumps]
  · rw [if_neg jumps]
    rfl

theorem capacity_execute : (machine.execute instruction).2.capacity = machine.capacity := by
  cases works : machine.clearZero.effect? instruction with
  | ok effect =>
    rw [execute_of_ok works]
    show ((machine.clearZero.apply effect).advance instruction).capacity = _
    rw [capacity_advance, capacity_apply]
    rfl
  | error trap =>
    rw [execute_of_error works]
    rfl

end Machine

namespace Simulator

/-- The configuration and the size of memory, which nothing changes. -/
def frame (simulator : Simulator) : Configuration × Nat :=
  (simulator.configuration, simulator.machine.capacity)

theorem capacity_new (configuration : Configuration) :
    (Simulator.new configuration).machine.capacity = configuration.memorySize :=
  Bytes.size_zeros _

variable (simulator : Simulator)

theorem frame_step : simulator.step.2.frame = simulator.frame := by
  have capacity := simulator.machine.capacity_execute simulator.machine.fetch
  unfold step Machine.step
  cases executed : simulator.machine.execute simulator.machine.fetch with
  | mk outcome machine =>
    rw [executed] at capacity
    cases outcome with
    | continued => exact congrArg (Prod.mk _) capacity
    | trapped trap => exact congrArg (Prod.mk _) capacity

theorem frame_of_step {simulator next : Simulator} {outcome : Outcome}
    (stepped : simulator.step = (outcome, next)) : next.frame = simulator.frame := by
  rw [← frame_step simulator, stepped]

theorem frame_run (budget : Nat) : (simulator.run budget).2.frame = simulator.frame := by
  induction budget, simulator using run_induction with
  | zero simulator => rfl
  | trapped budget simulator trap next stepped =>
    rw [run_of_trapped stepped]
    exact frame_of_step stepped
  | stays budget simulator next stepped stays =>
    rw [run_of_stays stepped stays]
    exact frame_of_step stepped
  | moves budget simulator next stepped moves inductionHypothesis =>
    rw [run_of_moves stepped moves]
    exact inductionHypothesis.trans (frame_of_step stepped)

theorem frame_reset : simulator.reset.frame = simulator.frame :=
  congrArg (Prod.mk _) (Bytes.size_zeros _)

theorem frame_loadImage (image : Image) :
    (simulator.loadImage image).2.frame = simulator.frame := by
  unfold loadImage
  cases image.check simulator.machine.capacity with
  | ok _ =>
    refine Eq.trans ?_ simulator.frame_reset
    exact congrArg (Prod.mk _) (simulator.reset.machine.capacity_install image)
  | error error => rfl

theorem frame_load (file : ByteArray) : (simulator.load file).2.frame = simulator.frame := by
  unfold load
  cases Image.load file simulator.machine.capacity with
  | ok image => exact simulator.frame_loadImage image
  | error error => rfl

theorem frame_loadFile (path : String) (file : Except CommandLine.ReadError ByteArray) :
    (CommandLine.loadFile simulator path file).2.frame = simulator.frame := by
  cases file with
  | error error => rfl
  | ok contents =>
    have kept := simulator.frame_load contents
    unfold CommandLine.loadFile
    dsimp only
    cases loaded : simulator.load contents with
    | mk result after =>
      rw [loaded] at kept
      cases result with
      | ok _ => exact kept
      | error error => exact kept

end Simulator

/-! ### Histories -/

/-- What a host may ask of a simulator. The host may put anything into registers, memory and the
program counter, but it leaves memory its size. -/
inductive Request where
  | load (file : ByteArray)
  | loadFile (path : String) (file : Except CommandLine.ReadError ByteArray)
  | loadImage (image : Image)
  | reset
  | attachSink
  | step
  | run (budget : Nat)
  | runToCompletion
  | pokeRegister (index : RegisterIndex) (value : UInt64)
  | pokeMemory (address : Nat) (bytes : List UInt8)
  | pokePc (pc : Int64)

namespace Simulator

/-- The simulator after a request. -/
def serve (simulator : Simulator) : Request → Simulator
  | .load file => (simulator.load file).2
  | .loadFile path file => (CommandLine.loadFile simulator path file).2
  | .loadImage image => (simulator.loadImage image).2
  | .reset => simulator.reset
  | .attachSink => simulator.attachSink
  | .step => simulator.step.2
  | .run budget => (simulator.run budget).2
  | .runToCompletion => simulator.runToCompletion.2
  | .pokeRegister index value =>
    { simulator with machine := simulator.machine.pokeRegister index value }
  | .pokeMemory address bytes =>
    { simulator with machine := simulator.machine.pokeMemory address bytes }
  | .pokePc pc => { simulator with machine := { simulator.machine with pc } }

/-- The simulator after requests in turn. -/
def serveAll (simulator : Simulator) (history : List Request) : Simulator :=
  history.foldl serve simulator

theorem frame_serve (simulator : Simulator) (request : Request) :
    (simulator.serve request).frame = simulator.frame := by
  cases request with
  | load file => exact simulator.frame_load file
  | loadFile path file => exact simulator.frame_loadFile path file
  | loadImage image => exact simulator.frame_loadImage image
  | reset => exact simulator.frame_reset
  | attachSink => rfl
  | step => exact simulator.frame_step
  | run budget => exact simulator.frame_run budget
  | runToCompletion => exact simulator.frame_run _
  | pokeRegister index value => rfl
  | pokeMemory address bytes => exact congrArg (Prod.mk _) (Bytes.size_overwrite _ _ _)
  | pokePc pc => rfl

/-- No history changes the configuration or the size of memory. -/
theorem frame_serveAll (history : List Request) :
    ∀ simulator : Simulator, (simulator.serveAll history).frame = simulator.frame := by
  induction history with
  | nil => exact fun _ => rfl
  | cons request history inductionHypothesis =>
    intro simulator
    exact (inductionHypothesis (simulator.serve request)).trans (simulator.frame_serve request)

end Simulator

end Hart
