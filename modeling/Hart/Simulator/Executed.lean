/-
This file tells which instructions a run executes. The answer comes from the states that the run
passes through, so it can be asked for before or after the run, and asking changes nothing.
-/

import Hart.Simulator.Run

namespace Hart.Simulator

/-- The instructions that a run with the given budget executes, after those already found. -/
def executedFrom (found : Array Instruction) : (budget : Nat) → Simulator → Array Instruction
  | 0, _ => found
  | budget + 1, simulator =>
    match simulator.step with
    | (.trapped _, _) => found
    | (.continued, after) =>
      if after.machine.pc = simulator.machine.pc then found.push simulator.current
      else executedFrom (found.push simulator.current) budget after

/-- The instructions that a run executes, in order. -/
def executed (simulator : Simulator) (budget : Nat) : Array Instruction :=
  executedFrom #[] budget simulator

end Hart.Simulator
