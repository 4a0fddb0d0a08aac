/-
This file runs programs one instruction at a time and records three temporaries after each. It is
the same run as the plain one: only the records differ, because every slice is reported as a run of
its own.
-/

import Hart.CommandLine.Journal

namespace Hart.CommandLine

open Hart.Text

/-- What is recorded after each slice of a traced run. -/
def registersMessage (summary : Summary) (simulator : Simulator) : String :=
  let registers := simulator.machine.registers
  "pc=" ++ hexLiteral summary.pc.toNat
    ++ " t0=" ++ hexLiteral (registers.read .t0).toNat
    ++ " t1=" ++ hexLiteral (registers.read .t1).toNat
    ++ " t2=" ++ hexLiteral (registers.read .t2).toNat

/-- Goes on with a traced run that has executed `executed` instructions, for as long as those are
fewer than the limit. Every slice that does not end the run has executed its one instruction, so the
count gets there. -/
def tracedFrom (threshold : Level) (limit : Nat) (journal : Journal) (executed : Nat)
    (simulator : Simulator) : Summary × Simulator × Journal :=
  if executed < limit then
    let instructions := Journal.executed threshold simulator 1
    match sliced : simulator.run 1 with
    | (slice, next) =>
      let journal :=
        (journal.noteRun threshold instructions slice).note threshold .info
          (registersMessage slice next)
      match ended : slice.reason with
      | .stepLimit =>
        have : slice.steps = 1 := Simulator.steps_of_run_eq sliced ended
        tracedFrom threshold limit journal (executed + slice.steps) next
      | reason => (⟨executed + slice.steps, slice.pc, reason⟩, next, journal)
  else (⟨executed, simulator.pc, .stepLimit⟩, simulator, journal)
termination_by limit - executed
decreasing_by omega

/-- A run of single steps with the budget of the configuration. -/
def runTraced (threshold : Level) (journal : Journal) (simulator : Simulator) :
    Summary × Simulator × Journal :=
  tracedFrom threshold simulator.configuration.maxSteps journal 0 simulator

end Hart.CommandLine
