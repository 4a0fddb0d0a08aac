/-
This file says what a run is in terms of single steps. A run goes on for as long as its instructions
are executed and move the program counter, and there are three ways in which that ends. Which of
them it is can be told from the steps alone, so the budget, the stall and the trap never compete: an
instruction that stalls ends the run even where it is the last one the budget allows, and an
instruction that would trap after the budget is used up is never looked at.

Budgets add up. A run that uses up its budget can be taken up again and then is one longer run; a
run that ended for another reason has nothing left to do.
-/

import Hart.Simulator.Run

namespace Hart

namespace Simulator

/-! ### Single steps -/

/-- The simulator after executing some instructions, if none of them traps. -/
def after? (simulator : Simulator) : (count : Nat) → Option Simulator
  | 0 => some simulator
  | count + 1 =>
    match simulator.step with
    | (.continued, next) => next.after? count
    | (.trapped _, _) => none

/-- Whether the instruction with a number, counted from one, is executed and leaves the program
counter where it was. -/
def StallsAt (simulator : Simulator) : (number : Nat) → Prop
  | 0 => False
  | number + 1 => ∃ before next, simulator.after? number = some before ∧
      before.step = (.continued, next) ∧ next.machine.pc = before.machine.pc

variable {simulator next : Simulator}

theorem after?_succ (stepped : simulator.step = (.continued, next)) (count : Nat) :
    simulator.after? (count + 1) = next.after? count := by
  rw [after?, stepped]

/-- The instructions that lead to a simulator were all executed. -/
theorem exists_step_of_after? {count : Nat} :
    ∀ {simulator last : Simulator}, simulator.after? count = some last →
      ∀ number < count, ∃ before next, simulator.after? number = some before ∧
        before.step = (.continued, next) := by
  induction count with
  | zero => exact fun _ number before => absurd before (Nat.not_lt_zero number)
  | succ count inductionHypothesis =>
    intro simulator last reached number before
    cases stepped : simulator.step with
    | mk outcome next =>
      cases outcome with
      | trapped trap =>
        rw [after?, stepped] at reached
        cases reached
      | continued =>
        cases number with
        | zero => exact ⟨simulator, next, rfl, stepped⟩
        | succ number =>
          rw [after?_succ stepped] at reached ⊢
          exact inductionHypothesis reached number (Nat.lt_of_succ_lt_succ before)

theorem stallsAt_one_iff (stepped : simulator.step = (.continued, next)) :
    simulator.StallsAt 1 ↔ next.machine.pc = simulator.machine.pc := by
  constructor
  · rintro ⟨before, other, found, stepped', stays⟩
    cases found
    cases stepped.symm.trans stepped'
    exact stays
  · exact fun stays => ⟨simulator, next, rfl, stepped, stays⟩

theorem stallsAt_succ_succ_iff (stepped : simulator.step = (.continued, next)) (number : Nat) :
    simulator.StallsAt (number + 2) ↔ next.StallsAt (number + 1) := by
  show (∃ before other, simulator.after? (number + 1) = some before ∧ _) ↔ _
  rw [after?_succ stepped]
  rfl

theorem not_stallsAt_of_le_zero (simulator : Simulator) :
    ∀ number ≤ 0, ¬simulator.StallsAt number := by
  intro number within stalls
  cases Nat.le_zero.mp within
  exact stalls

/-- Nothing stalls among the first instructions if the very first one moves the program counter and
nothing stalls after it. -/
theorem not_stallsAt_succ (stepped : simulator.step = (.continued, next))
    (moves : next.machine.pc ≠ simulator.machine.pc) {count : Nat}
    (rest : ∀ number ≤ count, ¬next.StallsAt number) :
    ∀ number ≤ count + 1, ¬simulator.StallsAt number := by
  intro number within stalls
  match number with
  | 0 => exact stalls
  | 1 => exact moves ((stallsAt_one_iff stepped).mp stalls)
  | number + 2 =>
    exact rest (number + 1) (by omega) ((stallsAt_succ_succ_iff stepped number).mp stalls)

/-! ### How a run ends -/

/-- How a run with a budget ends: how many instructions it executes, why it executes no more, and
what the simulator is like then. -/
inductive Ends (simulator : Simulator) (budget : Nat) :
    (count : Nat) → StopReason → Simulator → Prop
  | stepLimit {last : Simulator} (reached : simulator.after? budget = some last)
      (moving : ∀ number ≤ budget, ¬simulator.StallsAt number) :
      Ends simulator budget budget .stepLimit last
  | stalled {count : Nat} {last : Simulator} (within : count < budget)
      (reached : simulator.after? (count + 1) = some last)
      (moving : ∀ number ≤ count, ¬simulator.StallsAt number)
      (stalls : simulator.StallsAt (count + 1)) :
      Ends simulator budget (count + 1) .stalled last
  | trapped {count : Nat} {before last : Simulator} {trap : Trap} (within : count < budget)
      (reached : simulator.after? count = some before)
      (moving : ∀ number ≤ count, ¬simulator.StallsAt number)
      (traps : before.step = (.trapped trap, last)) :
      Ends simulator budget count (.trapped trap) last

/-- A run may be preceded by an instruction that moves the program counter. -/
theorem Ends.succ {budget count : Nat} {reason : StopReason} {last : Simulator}
    (stepped : simulator.step = (.continued, next))
    (moves : next.machine.pc ≠ simulator.machine.pc) (ends : next.Ends budget count reason last) :
    simulator.Ends (budget + 1) (count + 1) reason last := by
  cases ends with
  | stepLimit reached moving =>
    exact .stepLimit ((after?_succ stepped _).trans reached)
      (not_stallsAt_succ stepped moves moving)
  | stalled within reached moving stalls =>
    exact .stalled (Nat.succ_lt_succ within) ((after?_succ stepped _).trans reached)
      (not_stallsAt_succ stepped moves moving) ((stallsAt_succ_succ_iff stepped _).mpr stalls)
  | trapped within reached moving traps =>
    exact .trapped (Nat.succ_lt_succ within) ((after?_succ stepped _).trans reached)
      (not_stallsAt_succ stepped moves moving) traps

/-- Every run ends in one of the three ways, and its summary tells which. -/
theorem run_ends (simulator : Simulator) (budget : Nat) :
    simulator.Ends budget (simulator.run budget).1.steps (simulator.run budget).1.reason
        (simulator.run budget).2 ∧
      (simulator.run budget).1.pc = (simulator.run budget).2.pc := by
  induction budget, simulator using run_induction with
  | zero simulator => exact ⟨.stepLimit rfl simulator.not_stallsAt_of_le_zero, rfl⟩
  | trapped budget simulator trap next stepped =>
    rw [run_of_trapped stepped]
    exact ⟨.trapped (Nat.succ_pos budget) rfl simulator.not_stallsAt_of_le_zero stepped, rfl⟩
  | stays budget simulator next stepped stays =>
    rw [run_of_stays stepped stays]
    exact ⟨.stalled (Nat.succ_pos budget) (after?_succ stepped 0)
      simulator.not_stallsAt_of_le_zero ((stallsAt_one_iff stepped).mpr stays), rfl⟩
  | moves budget simulator next stepped moves inductionHypothesis =>
    obtain ⟨ends, pc⟩ := inductionHypothesis
    have later := ends.succ stepped moves
    rw [Nat.add_comm (next.run budget).1.steps 1] at later
    rw [run_of_moves stepped moves]
    exact ⟨later, pc⟩

/-! ### Telling the endings apart -/

/-- The simulator at the end of a run, where the executed instructions lead to the given one. The
step that traps is taken as well. -/
def endedBy (reached : Simulator) : StopReason → Simulator
  | .trapped _ => reached.step.2
  | _ => reached

section

variable {budget count : Nat} {reason : StopReason} {last : Simulator}

theorem Ends.count_le (ends : simulator.Ends budget count reason last) : count ≤ budget := by
  cases ends with
  | stepLimit reached moving => exact Nat.le_refl budget
  | stalled within reached moving stalls => exact within
  | trapped within reached moving traps => exact Nat.le_of_lt within

theorem Ends.moving (ends : simulator.Ends budget count reason last) :
    ∀ number < count, ¬simulator.StallsAt number := by
  intro number before
  cases ends with
  | stepLimit reached moving => exact moving number (Nat.le_of_lt before)
  | stalled within reached moving stalls => exact moving number (Nat.le_of_lt_succ before)
  | trapped within reached moving traps => exact moving number (Nat.le_of_lt before)

theorem Ends.stalled_iff (ends : simulator.Ends budget count reason last) :
    reason = .stalled ↔ 1 ≤ count ∧ simulator.StallsAt count := by
  cases ends with
  | stepLimit reached moving =>
    exact ⟨nofun, fun stalls => absurd stalls.2 (moving _ (Nat.le_refl _))⟩
  | stalled within reached moving stalls =>
    exact ⟨fun _ => ⟨Nat.succ_pos _, stalls⟩, fun _ => rfl⟩
  | trapped within reached moving traps =>
    exact ⟨nofun, fun stalls => absurd stalls.2 (moving _ (Nat.le_refl _))⟩

theorem Ends.stepLimit_iff (ends : simulator.Ends budget count reason last) :
    reason = .stepLimit ↔
      count = budget ∧ ∀ number ≤ count, ¬simulator.StallsAt number := by
  cases ends with
  | stepLimit reached moving => exact ⟨fun _ => ⟨rfl, moving⟩, fun _ => rfl⟩
  | stalled within reached moving stalls =>
    exact ⟨nofun, fun limit => absurd stalls (limit.2 _ (Nat.le_refl _))⟩
  | trapped within reached moving traps =>
    exact ⟨nofun, fun limit => absurd limit.1 (Nat.ne_of_lt within)⟩

theorem Ends.exists_reached (ends : simulator.Ends budget count reason last) :
    ∃ reached, simulator.after? count = some reached ∧
      last = reached.endedBy reason ∧
      ∀ trap, reason = .trapped trap ↔
        count < budget ∧ ¬simulator.StallsAt count ∧ reached.step.1 = .trapped trap := by
  cases ends with
  | stepLimit reached moving =>
    exact ⟨last, reached, rfl, fun trap => ⟨nofun, fun traps => absurd traps.1 (Nat.lt_irrefl _)⟩⟩
  | stalled within reached moving stalls =>
    exact ⟨last, reached, rfl, fun trap => ⟨nofun, fun traps => absurd stalls traps.2.1⟩⟩
  | @trapped _ before _ trap within reached moving traps =>
    refine ⟨before, reached, (congrArg Prod.snd traps).symm, fun other => ?_⟩
    rw [traps]
    constructor
    · rintro ⟨⟩
      exact ⟨within, moving _ (Nat.le_refl _), rfl⟩
    · rintro ⟨-, -, ⟨⟩⟩
      rfl

end

/-! ### Budgets add up -/

/-- A run that used up its budget is taken up where it stopped; any other run stays as it ended. -/
theorem run_add (simulator : Simulator) (budget more : Nat) :
    simulator.run (budget + more) =
      if (simulator.run budget).1.reason = .stepLimit then
        (((simulator.run budget).2.run more).1.precededBy (simulator.run budget).1.steps,
          ((simulator.run budget).2.run more).2)
      else simulator.run budget := by
  induction budget, simulator using run_induction with
  | zero simulator =>
    show _ = ((simulator.run more).1.precededBy 0, _)
    rw [Nat.zero_add, Summary.precededBy_zero]
    rfl
  | trapped budget simulator trap next stepped =>
    rw [Nat.succ_add, run_of_trapped stepped, run_of_trapped stepped]
    rfl
  | stays budget simulator next stepped stays =>
    rw [Nat.succ_add, run_of_stays stepped stays, run_of_stays stepped stays]
    rfl
  | moves budget simulator next stepped moves inductionHypothesis =>
    rw [Nat.succ_add, run_of_moves stepped moves, run_of_moves stepped moves,
      inductionHypothesis]
    by_cases limit : (next.run budget).1.reason = .stepLimit
    · have limit' : ((next.run budget).1.precededBy 1).reason = .stepLimit := limit
      rw [if_pos limit, if_pos limit', Summary.precededBy_precededBy]
      rfl
    · have limit' : ((next.run budget).1.precededBy 1).reason ≠ .stepLimit := limit
      rw [if_neg limit, if_neg limit']

/-- A run is as many single steps as its budget allows, up to the first one that traps or stalls,
and it says truly which of the three it was. Two runs in a row come to the same as one run with both
budgets, and where the first of them traps or stalls, the larger budget makes no difference. -/
theorem run_iterates_step (simulator : Simulator) (budget more : Nat) :
    let summary := (simulator.run budget).1
    let last := (simulator.run budget).2
    (∃ reached, simulator.after? summary.steps = some reached ∧
        last = reached.endedBy summary.reason ∧
        ∀ trap, summary.reason = .trapped trap ↔
          summary.steps < budget ∧ ¬simulator.StallsAt summary.steps ∧
            reached.step.1 = .trapped trap) ∧
      summary.steps ≤ budget ∧
      (∀ number < summary.steps, ¬simulator.StallsAt number) ∧
      (summary.reason = .stalled ↔ 1 ≤ summary.steps ∧ simulator.StallsAt summary.steps) ∧
      (summary.reason = .stepLimit ↔
        summary.steps = budget ∧ ∀ number ≤ summary.steps, ¬simulator.StallsAt number) ∧
      summary.pc = last.machine.pc.toUInt64 ∧
      (summary.reason = .stepLimit →
        simulator.run (budget + more) =
          ((last.run more).1.precededBy summary.steps, (last.run more).2)) ∧
      (summary.reason ≠ .stepLimit → simulator.run (budget + more) = simulator.run budget) := by
  intro summary last
  obtain ⟨ends, pc⟩ := simulator.run_ends budget
  refine ⟨ends.exists_reached, ends.count_le, ends.moving, ends.stalled_iff, ends.stepLimit_iff,
    pc, fun limit => ?_, fun other => ?_⟩
  · rw [run_add, if_pos limit]
  · rw [run_add, if_neg other]

/-- A program that moves on once and then jumps to where it is. The first run stops before the jump,
and taken up again it ends like one run with a budget to spare. -/
theorem run_iterates_step_loop :
    let simulator : Simulator :=
      { configuration := {}, machine := { memory := ⟨#[0x13, 0, 0, 0, 0x6f, 0, 0, 0]⟩ } }
    (simulator.run 1).1 = ⟨1, 4, .stepLimit⟩ ∧
      simulator.run (1 + 4) =
        (((simulator.run 1).2.run 4).1.precededBy 1, ((simulator.run 1).2.run 4).2) ∧
      (simulator.run 5).1 = ⟨2, 4, .stalled⟩ ∧ simulator.StallsAt 2 ∧
      simulator.run (5 + 7) = simulator.run 5 := by
  intro simulator
  have first : (simulator.run 1).1 = ⟨1, 4, .stepLimit⟩ := by decide +kernel
  have whole : (simulator.run 5).1 = ⟨2, 4, .stalled⟩ := by decide +kernel
  have goesOn := (run_iterates_step simulator 1 4).2.2.2.2.2.2.1 (congrArg Summary.reason first)
  obtain ⟨-, -, -, stalled, -, -, -, rests⟩ := run_iterates_step simulator 5 7
  have stalls := (stalled.mp (congrArg Summary.reason whole)).2
  have ended : (simulator.run 5).1.reason ≠ .stepLimit := by
    rw [whole]
    nofun
  rw [first] at goesOn
  rw [whole] at stalls
  exact ⟨first, goesOn, whole, stalls, rests ended⟩

end Simulator

end Hart
