/-
This file proves that a trap lasts. An instruction that is not executed changes nothing but register
zero, which a step clears before it looks at anything. So the next step meets the same instruction
in the same memory, computes the same address, and is refused for the same reason; and now there is
nothing left to clear, so the state is the same to the last bit. This also holds of the first trap
after a host has put something into register zero, where the state before the trap and the state
after it differ.
-/

import Hart.Proofs.Listening
import Hart.Proofs.ZeroRegister

namespace Hart

namespace Machine

variable {machine next : Machine} {trap : Trap}

/-- A step that is refused only clears register zero. -/
theorem agreeAboveZero_of_trapped (stepped : machine.step = (.trapped trap, next)) :
    next.AgreeAboveZero machine := by
  have refused := execute_trapped_iff_effect?.mp (congrArg Prod.fst stepped)
  have left : (machine.execute machine.fetch).2 = next := congrArg Prod.snd stepped
  rw [execute_of_error refused] at left
  rw [← left]
  exact machine.clearZero.agreeAboveZero_clearZero.trans machine.agreeAboveZero_clearZero

/-- A step that is refused is refused again, and then changes nothing. -/
theorem step_of_trapped (stepped : machine.step = (.trapped trap, next)) :
    next.step = (.trapped trap, next) := by
  rw [(agreeAboveZero_of_trapped stepped).step_eq, stepped]

end Machine

namespace Simulator

variable {simulator next : Simulator} {trap : Trap}

/-! ### Simulators that are stuck -/

/-- Whether the next instruction is refused and this changes nothing. -/
def StuckAt (simulator : Simulator) (trap : Trap) : Prop :=
  simulator.step = (.trapped trap, simulator)

/-- A simulator is stuck behind the first step that is refused. -/
theorem stuckAt_of_trapped (stepped : simulator.step = (.trapped trap, next)) :
    next.StuckAt trap := by
  have refused : simulator.machine.step = (.trapped trap, next.machine) :=
    Prod.ext (by rw [← outcome_step, stepped]) (by rw [← machine_step, stepped])
  rw [StuckAt, step, Machine.step_of_trapped refused]

/-- A run that ends with a trap leaves a stuck simulator, and says where it stands. -/
theorem stuckAt_of_run {budget : Nat} (trapped : (simulator.run budget).1.reason = .trapped trap) :
    (simulator.run budget).2.StuckAt trap ∧
      (simulator.run budget).1.pc = (simulator.run budget).2.pc := by
  induction budget, simulator using run_induction with
  | zero simulator => cases trapped
  | trapped budget simulator first next stepped =>
    rw [run_of_trapped stepped] at trapped ⊢
    cases trapped
    exact ⟨stuckAt_of_trapped stepped, rfl⟩
  | stays budget simulator next stepped stays =>
    rw [run_of_stays stepped stays] at trapped
    cases trapped
  | moves budget simulator next stepped moves inductionHypothesis =>
    rw [run_of_moves stepped moves] at trapped ⊢
    exact inductionHypothesis trapped

/-- What a host is told by a stuck simulator. Only a run that may not execute anything does not find
out that it is stuck. -/
def stuckAnswer (pc : UInt64) (trap : Trap) : Call → Answer
  | .step => .outcome (.trapped trap)
  | .run 0 => .summary ⟨0, pc, .stepLimit⟩
  | .run (_ + 1) => .summary ⟨0, pc, .trapped trap⟩

namespace StuckAt

variable (stuck : simulator.StuckAt trap)
include stuck

theorem run_eq (budget : Nat) :
    simulator.run (budget + 1) = (⟨0, simulator.pc, .trapped trap⟩, simulator) :=
  run_of_trapped stuck

theorem call_eq (call : Call) :
    simulator.call call = (stuckAnswer simulator.pc trap call, simulator) := by
  match call with
  | .step => rw [Simulator.call, stuck, stuckAnswer]
  | .run 0 => rfl
  | .run (budget + 1) => rw [Simulator.call, stuck.run_eq, stuckAnswer]

/-- No sequence of calls frees a stuck simulator. -/
theorem play_eq (calls : List Call) :
    simulator.play calls = (calls.map (stuckAnswer simulator.pc trap), simulator) := by
  induction calls with
  | nil => rfl
  | cons call calls inductionHypothesis =>
    rw [play, stuck.call_eq, inductionHypothesis, List.map_cons]

end StuckAt

/-- A trap is a fixed point. After a run that ended with one, whatever register zero held before,
the next step ends with the same trap, and every run that may take a step executes nothing and ends
at once at the same place with the same trap. Nothing of the simulator changes, neither by a step
nor by a run nor by any sequence of them, each of which is answered as the first one is. -/
theorem trap_persists (simulator : Simulator) (budget : Nat) (trap : Trap)
    (trapped : (simulator.run budget).1.reason = .trapped trap) :
    let summary := (simulator.run budget).1
    let last := (simulator.run budget).2
    last.step = (.trapped trap, last) ∧
      (∀ more, last.run (more + 1) = (⟨0, summary.pc, .trapped trap⟩, last)) ∧
      ∀ calls, last.play calls = (calls.map (stuckAnswer summary.pc trap), last) := by
  intro summary last
  obtain ⟨stuck, pc⟩ : last.StuckAt trap ∧ summary.pc = last.pc := stuckAt_of_run trapped
  rw [pc]
  exact ⟨stuck, stuck.run_eq, stuck.play_eq⟩

/-- A load from eight bytes below register zero, in a memory of eight bytes. The host has put eight
there, with which the load would have succeeded. -/
theorem trap_persists_poked :
    let plain : Simulator :=
      { configuration := {}
        machine := { memory := ⟨#[0x83, 0x30, 0x80, 0xff, 0, 0, 0, 0]⟩ } }
    let simulator := plain.serve (.pokeRegister 0 8)
    let trap : Trap := .memoryFault 0xfffffffffffffff8 8
    let last := (simulator.run 3).2
    (simulator.run 3).1 = ⟨0, 0, .trapped trap⟩ ∧
      simulator.machine.registers.read 0 = 8 ∧ last.machine.registers.read 0 = 0 ∧
      (∀ more, last.run (more + 1) = (⟨0, 0, .trapped trap⟩, last)) ∧
      last.play [.step, .run 0, .run 2] =
        ([.outcome (.trapped trap), .summary ⟨0, 0, .stepLimit⟩, .summary ⟨0, 0, .trapped trap⟩],
          last) := by
  intro plain simulator trap last
  have summary : (simulator.run 3).1 = ⟨0, 0, .trapped trap⟩ := by decide +kernel
  have poked : simulator.machine.registers.read 0 = 8 := by decide +kernel
  have trapped : (simulator.run 3).1.reason = .trapped trap := by rw [summary]
  obtain ⟨stepped, runs, calls⟩ := trap_persists simulator 3 trap trapped
  have cleared : last.machine.registers.read 0 = 0 := read_zero_of_step stepped
  rw [summary] at runs calls
  exact ⟨summary, poked, cleared, runs, calls [.step, .run 0, .run 2]⟩

end Simulator

end Hart
