/-
This file proves that nobody can tell from a machine who listens to it. What a step answers, and
what it does to program counter, registers and memory, is the same with every sink and with none;
a sink that is there receives some deliveries, and which ones does not depend on what it received
before. The same holds for runs and for sequences of calls, and there also the configuration makes
no difference.
-/

import Hart.Proofs.Effects
import Hart.Simulator.Run

namespace Hart

/-- The sink after some deliveries in turn. -/
def Sink.hear (sink : Sink) (deliveries : List Delivery) : Sink :=
  ⟨sink.received ++ deliveries.toArray⟩

/-- A sink hears what is delivered, if there is one. -/
def hear (sink : Option Sink) (deliveries : List Delivery) : Option Sink :=
  sink.map (·.hear deliveries)

theorem hear_nil (sink : Option Sink) : hear sink [] = sink := by
  cases sink with
  | none => rfl
  | some sink => exact congrArg (fun received => some (Sink.mk received)) Array.append_empty

theorem hear_append (sink : Option Sink) (first second : List Delivery) :
    hear sink (first ++ second) = hear (hear sink first) second := by
  cases sink with
  | none => rfl
  | some sink =>
    refine congrArg (fun received => some (Sink.mk received)) ?_
    rw [← List.append_toArray]
    exact Array.append_assoc.symm

/-! ### One step -/

namespace Machine

/-- The machine with another sink, or with none. -/
def withSink (machine : Machine) (sink : Option Sink) : Machine :=
  { machine with sink }

/-- What a sink hears while an effect is carried out. -/
def heard : Effect → List Delivery
  | .write (.deliver delivery) => [delivery]
  | _ => []

variable (machine : Machine) (instruction : Instruction)

theorem effect?_withSink (sink : Option Sink) :
    (machine.withSink sink).clearZero.effect? instruction =
      machine.clearZero.effect? instruction := by
  unfold effect?
  cases instruction.operation.action? with
  | none => rfl
  | some action => cases action <;> rfl

theorem apply_withSink (effect : Effect) (sink : Option Sink) :
    (machine.withSink sink).apply effect =
      (machine.apply effect).withSink (hear sink (heard effect)) := by
  cases effect with
  | write write =>
    cases write with
    | deliver delivery =>
      cases sink with
      | none => rfl
      | some sink =>
        exact congrArg (fun received => { machine with sink := some (Sink.mk received) })
          Array.push_eq_append
    | memory address bytes =>
      show _ = (machine.apply _).withSink (hear sink [])
      rw [hear_nil]
      rfl
  | _ =>
    show _ = (machine.apply _).withSink (hear sink [])
    rw [hear_nil]
    rfl

theorem advance_withSink (sink : Option Sink) :
    (machine.withSink sink).advance instruction =
      (machine.advance instruction).withSink sink := by
  unfold advance
  by_cases jumps : instruction.isJump
  · rw [if_pos jumps, if_pos jumps]
  · rw [if_neg jumps, if_neg jumps]
    rfl

/-- A step is the same for every sink, and what the sink hears is a matter of the step. -/
theorem execute_withSink :
    ∃ deliveries, ∀ sink, (machine.withSink sink).execute instruction =
      ((machine.execute instruction).1,
        (machine.execute instruction).2.withSink (hear sink deliveries)) := by
  cases works : machine.clearZero.effect? instruction with
  | ok effect =>
    refine ⟨heard effect, fun sink => ?_⟩
    rw [execute_of_ok ((machine.effect?_withSink instruction sink).trans works),
      execute_of_ok works]
    show (_, (((machine.clearZero.withSink sink).apply effect).advance instruction).clearZero) = _
    rw [apply_withSink, advance_withSink]
    rfl
  | error trap =>
    refine ⟨[], fun sink => ?_⟩
    rw [execute_of_error ((machine.effect?_withSink instruction sink).trans works),
      execute_of_error works, hear_nil]
    rfl

end Machine

namespace Simulator

/-! ### Runs -/

/-- The simulator with another configuration and another sink. -/
def retarget (simulator : Simulator) (configuration : Configuration) (sink : Option Sink) :
    Simulator :=
  { simulator with configuration, machine := simulator.machine.withSink sink }

theorem step_retarget (simulator : Simulator) :
    ∃ deliveries, ∀ configuration sink, (simulator.retarget configuration sink).step =
      (simulator.step.1, simulator.step.2.retarget configuration (hear sink deliveries)) := by
  obtain ⟨deliveries, same⟩ := simulator.machine.execute_withSink simulator.machine.fetch
  refine ⟨deliveries, fun configuration sink => ?_⟩
  have machines : (simulator.retarget configuration sink).machine.step =
      (simulator.machine.step.1, simulator.machine.step.2.withSink (hear sink deliveries)) :=
    same sink
  unfold step
  rw [machines]
  cases simulator.machine.step with
  | mk outcome machine =>
    cases outcome with
    | continued => rfl
    | trapped trap => rfl

theorem run_retarget (simulator : Simulator) (budget : Nat) :
    ∃ deliveries, ∀ configuration sink, (simulator.retarget configuration sink).run budget =
      ((simulator.run budget).1,
        (simulator.run budget).2.retarget configuration (hear sink deliveries)) := by
  induction budget, simulator using run_induction with
  | zero simulator =>
    refine ⟨[], fun configuration sink => ?_⟩
    rw [hear_nil]
    rfl
  | trapped budget simulator trap next stepped =>
    obtain ⟨now, same⟩ := simulator.step_retarget
    rw [stepped] at same
    refine ⟨now, fun configuration sink => ?_⟩
    rw [run_of_trapped (same configuration sink), run_of_trapped stepped]
    rfl
  | stays budget simulator next stepped stays =>
    obtain ⟨now, same⟩ := simulator.step_retarget
    rw [stepped] at same
    refine ⟨now, fun configuration sink => ?_⟩
    rw [run_of_stays (same configuration sink) stays, run_of_stays stepped stays]
    rfl
  | moves budget simulator next stepped moves inductionHypothesis =>
    obtain ⟨now, same⟩ := simulator.step_retarget
    obtain ⟨later, rest⟩ := inductionHypothesis
    rw [stepped] at same
    refine ⟨now ++ later, fun configuration sink => ?_⟩
    rw [run_of_moves (same configuration sink) moves, run_of_moves stepped moves, hear_append,
      rest configuration (hear sink now)]

/-! ### Calls -/

/-- What a host may call once a program is loaded. -/
inductive Call where
  | step
  | run (budget : Nat)

/-- What a host is told. -/
inductive Answer where
  | outcome (outcome : Outcome)
  | summary (summary : Summary)
deriving DecidableEq

/-- Carries out a call. -/
def call (simulator : Simulator) : Call → Answer × Simulator
  | .step => (.outcome simulator.step.1, simulator.step.2)
  | .run budget => (.summary (simulator.run budget).1, (simulator.run budget).2)

/-- Carries out calls in turn. -/
def play (simulator : Simulator) : List Call → List Answer × Simulator
  | [] => ([], simulator)
  | call :: calls =>
    ((simulator.call call).1 :: ((simulator.call call).2.play calls).1,
      ((simulator.call call).2.play calls).2)

theorem call_retarget (simulator : Simulator) (call : Call) :
    ∃ deliveries, ∀ configuration sink, (simulator.retarget configuration sink).call call =
      ((simulator.call call).1,
        (simulator.call call).2.retarget configuration (hear sink deliveries)) := by
  cases call with
  | step =>
    obtain ⟨deliveries, same⟩ := simulator.step_retarget
    refine ⟨deliveries, fun configuration sink => ?_⟩
    unfold Simulator.call
    rw [same]
  | run budget =>
    obtain ⟨deliveries, same⟩ := simulator.run_retarget budget
    refine ⟨deliveries, fun configuration sink => ?_⟩
    unfold Simulator.call
    dsimp only
    rw [same]

/-- Answers and states are the same with every configuration and every sink, and the sink hears the
same. -/
theorem play_retarget (calls : List Call) :
    ∀ simulator : Simulator, ∃ deliveries, ∀ configuration sink,
      (simulator.retarget configuration sink).play calls =
        ((simulator.play calls).1,
          (simulator.play calls).2.retarget configuration (hear sink deliveries)) := by
  induction calls with
  | nil =>
    intro simulator
    refine ⟨[], fun configuration sink => ?_⟩
    rw [hear_nil]
    rfl
  | cons call calls inductionHypothesis =>
    intro simulator
    obtain ⟨now, same⟩ := simulator.call_retarget call
    obtain ⟨later, rest⟩ := inductionHypothesis (simulator.call call).2
    refine ⟨now ++ later, fun configuration sink => ?_⟩
    unfold play
    rw [same]
    dsimp only
    rw [rest, hear_append]

end Simulator

end Hart
