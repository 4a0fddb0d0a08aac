/-
This file runs programs. A run executes instructions one by one until the budget is used up, an
instruction traps, or an instruction leaves the program counter where it was. Most programs end in
that way, with a jump to itself.
-/

import Hart.Simulator.Basic

namespace Hart

/-- Why a run ended. -/
inductive StopReason where
  /-- The budget was used up. -/
  | stepLimit
  /-- An instruction left the program counter where it was. -/
  | stalled
  /-- An instruction was not executed. -/
  | trapped (trap : Trap)
deriving DecidableEq

/-- How a run ended. -/
structure Summary where
  /-- How many instructions the run executed. -/
  steps : Nat
  /-- The program counter at the end. -/
  pc : UInt64
  reason : StopReason
deriving DecidableEq

namespace Simulator

/-- Goes on with a run that has executed `executed` instructions and may execute `budget` more. The
program counter is handed on from step to step, so that nothing but the simulator that goes on holds
its memory, which is then changed in place. -/
def runFrom (executed : Nat) (pc : Int64) : (budget : Nat) → Simulator → Summary × Simulator
  | 0, simulator => (⟨executed, simulator.pc, .stepLimit⟩, simulator)
  | budget + 1, simulator =>
    match simulator.step with
    | (.trapped trap, simulator) => (⟨executed, simulator.pc, .trapped trap⟩, simulator)
    | (.continued, simulator) =>
      if simulator.machine.pc = pc then (⟨executed + 1, simulator.pc, .stalled⟩, simulator)
      else runFrom (executed + 1) simulator.machine.pc budget simulator

/-- Runs until a trap, a stall, or `budget` executed instructions. -/
def run (simulator : Simulator) (budget : Nat) : Summary × Simulator :=
  runFrom 0 simulator.machine.pc budget simulator

/-- Runs with the budget of the configuration. -/
def runToCompletion (simulator : Simulator) : Summary × Simulator :=
  simulator.run simulator.configuration.maxSteps

/-! ### What a run does first -/

/-- Induction over runs. An instruction that traps or stays where it is ends a run, so only one that
moves the program counter has a run behind it. -/
@[elab_as_elim]
theorem run_induction {motive : (budget : Nat) → Simulator → Prop}
    (zero : ∀ simulator, motive 0 simulator)
    (trapped : ∀ budget simulator trap next, simulator.step = (.trapped trap, next) →
      motive (budget + 1) simulator)
    (stays : ∀ budget simulator next, simulator.step = (.continued, next) →
      next.machine.pc = simulator.machine.pc → motive (budget + 1) simulator)
    (moves : ∀ budget simulator next, simulator.step = (.continued, next) →
      next.machine.pc ≠ simulator.machine.pc → motive budget next → motive (budget + 1) simulator)
    (budget : Nat) (simulator : Simulator) : motive budget simulator := by
  induction budget generalizing simulator with
  | zero => exact zero simulator
  | succ budget inductionHypothesis =>
    cases stepped : simulator.step with
    | mk outcome next =>
      cases outcome with
      | trapped trap => exact trapped budget simulator trap next stepped
      | continued =>
        by_cases same : next.machine.pc = simulator.machine.pc
        · exact stays budget simulator next stepped same
        · exact moves budget simulator next stepped same (inductionHypothesis next)

section

variable {simulator next : Simulator} {trap : Trap} {executed budget : Nat}

theorem runFrom_of_trapped (stepped : simulator.step = (.trapped trap, next)) :
    runFrom executed simulator.machine.pc (budget + 1) simulator =
      (⟨executed, next.pc, .trapped trap⟩, next) := by
  rw [runFrom, stepped]

theorem runFrom_of_stays (stepped : simulator.step = (.continued, next))
    (stays : next.machine.pc = simulator.machine.pc) :
    runFrom executed simulator.machine.pc (budget + 1) simulator =
      (⟨executed + 1, next.pc, .stalled⟩, next) := by
  rw [runFrom, stepped]
  exact if_pos stays

theorem runFrom_of_moves (stepped : simulator.step = (.continued, next))
    (moves : next.machine.pc ≠ simulator.machine.pc) :
    runFrom executed simulator.machine.pc (budget + 1) simulator =
      runFrom (executed + 1) next.machine.pc budget next := by
  rw [runFrom, stepped]
  exact if_neg moves

end

end Simulator

/-- The summary of a run as the later part of a longer one. -/
def Summary.precededBy (summary : Summary) (executed : Nat) : Summary :=
  { summary with steps := executed + summary.steps }

theorem Summary.precededBy_zero (summary : Summary) : summary.precededBy 0 = summary := by
  cases summary
  exact congrArg (Summary.mk · _ _) (Nat.zero_add _)

theorem Summary.precededBy_precededBy (summary : Summary) (first second : Nat) :
    (summary.precededBy second).precededBy first = summary.precededBy (first + second) :=
  congrArg (Summary.mk · _ _) (Nat.add_assoc first second _).symm

namespace Simulator

/-- What was executed before only shows in the count. -/
theorem runFrom_eq_precededBy (executed budget : Nat) (simulator : Simulator) :
    runFrom executed simulator.machine.pc budget simulator =
      ((simulator.run budget).1.precededBy executed, (simulator.run budget).2) := by
  unfold run
  induction budget, simulator using run_induction generalizing executed with
  | zero simulator => rfl
  | trapped budget simulator trap next stepped =>
    rw [runFrom_of_trapped stepped, runFrom_of_trapped stepped]
    rfl
  | stays budget simulator next stepped stays =>
    rw [runFrom_of_stays stepped stays, runFrom_of_stays stepped stays]
    rfl
  | moves budget simulator next stepped moves inductionHypothesis =>
    rw [runFrom_of_moves stepped moves, runFrom_of_moves stepped moves,
      inductionHypothesis (executed + 1), inductionHypothesis (0 + 1),
      Summary.precededBy_precededBy, Nat.zero_add]

section

variable {simulator next : Simulator} {trap : Trap} {budget : Nat}

theorem run_of_trapped (stepped : simulator.step = (.trapped trap, next)) :
    simulator.run (budget + 1) = (⟨0, next.pc, .trapped trap⟩, next) :=
  runFrom_of_trapped stepped

theorem run_of_stays (stepped : simulator.step = (.continued, next))
    (stays : next.machine.pc = simulator.machine.pc) :
    simulator.run (budget + 1) = (⟨1, next.pc, .stalled⟩, next) :=
  runFrom_of_stays stepped stays

theorem run_of_moves (stepped : simulator.step = (.continued, next))
    (moves : next.machine.pc ≠ simulator.machine.pc) :
    simulator.run (budget + 1) = ((next.run budget).1.precededBy 1, (next.run budget).2) :=
  (runFrom_of_moves stepped moves).trans (runFrom_eq_precededBy 1 budget next)

/-- A run that ends at its limit has executed as many instructions as its budget allows. -/
theorem steps_of_run_eq {summary : Summary} (ran : simulator.run budget = (summary, next))
    (limit : summary.reason = .stepLimit) : summary.steps = budget := by
  induction budget, simulator using run_induction generalizing summary with
  | zero simulator =>
    cases ran
    rfl
  | trapped budget simulator trap last stepped =>
    rw [run_of_trapped stepped] at ran
    cases ran
    cases limit
  | stays budget simulator last stepped stays =>
    rw [run_of_stays stepped stays] at ran
    cases ran
    cases limit
  | moves budget simulator second stepped moves inductionHypothesis =>
    rw [run_of_moves stepped moves] at ran
    obtain ⟨rfl, rfl⟩ := Prod.mk.inj ran
    have rest : (second.run budget).1.steps = budget := inductionHypothesis rfl limit
    show 1 + (second.run budget).1.steps = budget + 1
    rw [rest, Nat.add_comm]

end

end Simulator

end Hart
