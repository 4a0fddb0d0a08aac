/-
This file says what the console hears of a run. It hears of every executed instruction that stores
at its address, once and in the order of execution, and of nothing else; each time it hears the
lowest byte of the register that is stored, whatever the width of the store.

Where a store goes is decided by the address at which it starts. One that starts at the console
touches no memory and cannot fail, however small memory is. One that starts below the console and
reaches over it is a store like any other: it writes memory, or fails where memory ends before it
does, and the console hears nothing.
-/

import Hart.Proofs.Listening
import Hart.Proofs.Running
import Hart.Proofs.Traps

namespace Hart

namespace Machine

/-! ### One instruction -/

/-- What an instruction delivers to the console, if it is a store at the console's address. -/
def delivered? (machine : Machine) (instruction : Instruction) : Option Delivery :=
  if instruction.operation.storeWidth?.isSome ∧ machine.reached instruction .first = 0x10000 then
    some ⟨(machine.registerValue (instruction.register .second)).toUInt8, 0x10000⟩
  else none

variable {machine : Machine} {instruction : Instruction} {width : Nat}

theorem delivered?_of_console (written : instruction.operation.storeWidth? = some width)
    (atConsole : machine.reached instruction .first = 0x10000) :
    machine.delivered? instruction =
      some ⟨(machine.registerValue (instruction.register .second)).toUInt8, 0x10000⟩ :=
  if_pos ⟨by rw [written]; rfl, atConsole⟩

theorem delivered?_of_elsewhere (elsewhere : machine.reached instruction .first ≠ 0x10000) :
    machine.delivered? instruction = none :=
  if_neg fun delivered => elsewhere delivered.2

theorem delivered?_of_no_store (missing : instruction.operation.storeWidth? = none) :
    machine.delivered? instruction = none := by
  refine if_neg fun delivered => ?_
  rw [missing] at delivered
  cases delivered.1

/-- The effect of a store, told from the state before the step. -/
theorem effect?_of_storeWidth (machine : Machine)
    (written : instruction.operation.storeWidth? = some width) :
    machine.clearZero.effect? instruction =
      let address := machine.reached instruction .first
      let value := machine.registerValue (instruction.register .second)
      if address = 0x10000 then .ok (.write (.deliver ⟨value.toUInt8, address⟩))
      else if address.toNat + width ≤ machine.capacity then
        .ok (.write (.memory address.toNat (Bytes.ofNumber width value.toNat)))
      else .error (.memoryFault address width) := by
  have works := effect?_of_store machine.clearZero (Operation.store_iff.mpr written)
    (Operation.real_of_store written)
  rw [effectiveAddress_clearZero, operand_clearZero] at works
  exact works

/-- Only a store writes, so nothing else is heard. -/
theorem heard_of_no_store {effect : Effect} (missing : instruction.operation.storeWidth? = none)
    (works : machine.effect? instruction = .ok effect) : heard effect = [] := by
  obtain ⟨action, executes, kind⟩ := machine.exists_action works
  cases effect with
  | write write =>
    cases action with
    | store width =>
      rw [Operation.store_iff] at executes
      cases missing.symm.trans executes
    | _ => cases kind
  | _ => rfl

/-- What is heard of an effect is what the instruction delivers. -/
theorem heard_eq {effect : Effect} (works : machine.clearZero.effect? instruction = .ok effect) :
    heard effect = (machine.delivered? instruction).toList := by
  cases written : instruction.operation.storeWidth? with
  | none =>
    rw [heard_of_no_store written works, delivered?_of_no_store written]
    rfl
  | some width =>
    rw [effect?_of_storeWidth machine written] at works
    dsimp only at works
    by_cases atConsole : machine.reached instruction .first = 0x10000
    · rw [if_pos atConsole, atConsole] at works
      cases works
      rw [delivered?_of_console written atConsole]
      rfl
    · rw [if_neg atConsole] at works
      rw [delivered?_of_elsewhere atConsole]
      split at works
      · cases works
        rfl
      · cases works

/-- An instruction that is not executed delivers nothing. -/
theorem delivered?_of_error {trap : Trap}
    (fails : machine.clearZero.effect? instruction = .error trap) :
    machine.delivered? instruction = none := by
  cases written : instruction.operation.storeWidth? with
  | none => exact delivered?_of_no_store written
  | some width =>
    refine delivered?_of_elsewhere fun atConsole => ?_
    rw [effect?_of_storeWidth machine written] at fails
    dsimp only at fails
    rw [if_pos atConsole] at fails
    cases fails

/-- A sink hears what the instruction delivers, and no other sink is put in its place. -/
theorem sink_execute (machine : Machine) (instruction : Instruction) :
    (machine.execute instruction).2.sink =
      hear machine.sink (machine.delivered? instruction).toList := by
  cases works : machine.clearZero.effect? instruction with
  | ok effect =>
    rw [execute_of_ok works, ← heard_eq works]
    have applied := machine.clearZero.apply_withSink effect machine.sink
    show ((machine.clearZero.apply effect).advance instruction).sink = _
    rw [advance_eq]
    exact congrArg Machine.sink applied
  | error trap =>
    rw [execute_of_error works, delivered?_of_error works]
    exact (hear_nil machine.sink).symm

/-! ### Stores -/

/-- A store that is carried out changes no register. -/
theorem execute_of_write {write : Write}
    (works : machine.clearZero.effect? instruction = .ok (.write write)) :
    (machine.execute instruction).1 = .continued ∧
      (machine.execute instruction).2.memory = (machine.commit write).memory ∧
      ∀ index, index ≠ 0 →
        (machine.execute instruction).2.registers.read index = machine.registers.read index := by
  rw [execute_of_ok works, advance_eq]
  refine ⟨rfl, by cases write <;> rfl, fun index positive => ?_⟩
  have registers : (machine.clearZero.apply (.write write)).registers =
      machine.registers.clearZero := by cases write <;> rfl
  show (machine.clearZero.apply (.write write)).registers.clearZero.read index = _
  rw [registers, Registers.read_clearZero_of_ne _ positive,
    Registers.read_clearZero_of_ne _ positive]

/-- A store at the console succeeds whatever the size of memory, and neither memory nor any register
changes. -/
theorem execute_at_console (written : instruction.operation.storeWidth? = some width)
    (atConsole : machine.reached instruction .first = 0x10000) :
    (machine.execute instruction).1 = .continued ∧
      (machine.execute instruction).2.memory = machine.memory ∧
      ∀ index, index ≠ 0 →
        (machine.execute instruction).2.registers.read index = machine.registers.read index := by
  have works := effect?_of_storeWidth machine written
  dsimp only at works
  rw [if_pos atConsole] at works
  exact execute_of_write works

/-- A store anywhere else is not heard, whether it reaches over the console or not. It writes memory
if it ends inside and fails otherwise. -/
theorem execute_elsewhere (written : instruction.operation.storeWidth? = some width)
    (elsewhere : machine.reached instruction .first ≠ 0x10000) :
    let address := machine.reached instruction .first
    let value := machine.registerValue (instruction.register .second)
    (machine.execute instruction).2.sink = machine.sink ∧
      (address.toNat + width ≤ machine.capacity →
        (machine.execute instruction).1 = .continued ∧
          (machine.execute instruction).2.memory =
            Bytes.overwrite machine.memory address.toNat (Bytes.ofNumber width value.toNat)) ∧
      (machine.capacity < address.toNat + width →
        (machine.execute instruction).1 = .trapped (.memoryFault address width) ∧
          (machine.execute instruction).2.memory = machine.memory) := by
  intro address value
  have works := effect?_of_storeWidth machine written
  dsimp only at works
  rw [if_neg elsewhere] at works
  refine ⟨?_, fun inside => ?_, fun beyond => ?_⟩
  · rw [sink_execute, delivered?_of_elsewhere elsewhere]
    exact hear_nil machine.sink
  · rw [if_pos inside] at works
    obtain ⟨completed, memory, -⟩ := execute_of_write works
    exact ⟨completed, memory⟩
  · rw [if_neg (Nat.not_le.mpr beyond)] at works
    rw [execute_of_error works]
    exact ⟨rfl, rfl⟩

end Machine

namespace Simulator

variable {simulator next : Simulator}

/-! ### Runs -/

/-- What the next instruction delivers to the console. -/
def delivered? (simulator : Simulator) : Option Delivery :=
  simulator.machine.delivered? simulator.current

/-- What the first instructions deliver to the console, in the order of execution. -/
def deliveries (simulator : Simulator) (count : Nat) : List Delivery :=
  (List.range count).filterMap fun number => (simulator.after? number).bind delivered?

theorem deliveries_succ (stepped : simulator.step = (.continued, next)) (count : Nat) :
    simulator.deliveries (count + 1) = simulator.delivered?.toList ++ next.deliveries count := by
  have later : ∀ number, simulator.after? (number + 1) = next.after? number :=
    after?_succ stepped
  have first : (simulator.after? 0).bind delivered? = simulator.delivered? := rfl
  unfold deliveries
  rw [List.range_succ_eq_map, List.filterMap_cons, List.filterMap_map, first]
  simp only [Function.comp_def, Nat.succ_eq_add_one, later]
  cases simulator.delivered? with
  | none => rfl
  | some delivery => rfl

theorem sink_step (simulator : Simulator) :
    simulator.step.2.machine.sink =
      hear simulator.machine.sink simulator.delivered?.toList := by
  rw [machine_step]
  exact Machine.sink_execute simulator.machine simulator.current

theorem sink_of_step {outcome : Outcome} (stepped : simulator.step = (outcome, next)) :
    next.machine.sink = hear simulator.machine.sink simulator.delivered?.toList := by
  rw [← sink_step simulator, stepped]

/-- An instruction that traps delivers nothing. -/
theorem delivered?_of_trapped {trap : Trap} (stepped : simulator.step = (.trapped trap, next)) :
    simulator.delivered? = none := by
  have trapped : simulator.machine.step.1 = .trapped trap := by
    rw [← outcome_step, stepped]
  exact Machine.delivered?_of_error (Machine.execute_trapped_iff_effect?.mp trapped)

/-- After a run the sink has heard what the executed instructions delivered. -/
theorem sink_run (simulator : Simulator) (budget : Nat) :
    (simulator.run budget).2.machine.sink =
      hear simulator.machine.sink
        (simulator.deliveries (simulator.run budget).1.steps) := by
  induction budget, simulator using run_induction with
  | zero simulator => exact (hear_nil simulator.machine.sink).symm
  | trapped budget simulator trap next stepped =>
    have heard := sink_of_step stepped
    rw [delivered?_of_trapped stepped] at heard
    rw [run_of_trapped stepped]
    exact heard
  | stays budget simulator next stepped stays =>
    rw [run_of_stays stepped stays, deliveries_succ stepped 0, hear_append,
      ← sink_of_step stepped]
    exact (hear_nil next.machine.sink).symm
  | moves budget simulator next stepped moves inductionHypothesis =>
    rw [run_of_moves stepped moves]
    show (next.run budget).2.machine.sink =
      hear simulator.machine.sink (simulator.deliveries (1 + (next.run budget).1.steps))
    rw [Nat.add_comm 1, deliveries_succ stepped, hear_append, ← sink_of_step stepped,
      inductionHypothesis]

/-- The console hears of a run exactly what the program stores there. All instructions that the
summary counts were executed. Each of them that is a store at the console's address has delivered
the lowest byte of its register, in the order of execution, and the sink has heard nothing else.
Such a store succeeds whatever the size of memory and changes neither memory nor a register; a store
that starts elsewhere is not heard, even where it reaches over the console, and writes memory, or
fails if it ends beyond it. Which sink listens, or whether one does, makes no difference to anything
else. -/
theorem run_delivers_stores (simulator : Simulator) (budget : Nat) :
    let summary := (simulator.run budget).1
    let last := (simulator.run budget).2
    (∀ number < summary.steps, ∃ before next, simulator.after? number = some before ∧
        before.step = (.continued, next)) ∧
      (∀ sink, simulator.machine.sink = some sink →
        last.machine.sink =
          some ⟨sink.received ++ (simulator.deliveries summary.steps).toArray⟩) ∧
      (∀ (machine : Machine) (instruction : Instruction) (width : Nat),
        instruction.operation.storeWidth? = some width →
        let after := (machine.execute instruction).2
        let address := machine.reached instruction .first
        let value := machine.registerValue (instruction.register .second)
        (address = 0x10000 →
          (machine.execute instruction).1 = .continued ∧ after.memory = machine.memory ∧
            (∀ index, index ≠ 0 →
              after.registers.read index = machine.registers.read index) ∧
            after.sink = hear machine.sink [⟨value.toUInt8, 0x10000⟩]) ∧
        (address ≠ 0x10000 →
          after.sink = machine.sink ∧
            (address.toNat + width ≤ machine.capacity →
              (machine.execute instruction).1 = .continued ∧
                after.memory = Bytes.overwrite machine.memory address.toNat
                  (Bytes.ofNumber width value.toNat)) ∧
            (machine.capacity < address.toNat + width →
              (machine.execute instruction).1 = .trapped (.memoryFault address width) ∧
                after.memory = machine.memory))) ∧
      (∀ sink, let other := (simulator.retarget simulator.configuration sink).run budget
        other.1 = summary ∧ other.2.machine.registers = last.machine.registers ∧
          other.2.machine.memory = last.machine.memory ∧
          other.2.machine.pc = last.machine.pc) := by
  intro summary last
  refine ⟨?_, fun sink attached => ?_, fun machine instruction width written => ?_, fun sink => ?_⟩
  · obtain ⟨reached, found, -⟩ := (simulator.run_ends budget).1.exists_reached
    exact exists_step_of_after? found
  · have heard := simulator.sink_run budget
    rw [attached] at heard
    exact heard
  · refine ⟨fun atConsole => ?_, fun elsewhere => Machine.execute_elsewhere written elsewhere⟩
    obtain ⟨completed, memory, registers⟩ := Machine.execute_at_console written atConsole
    refine ⟨completed, memory, registers, ?_⟩
    rw [Machine.sink_execute, Machine.delivered?_of_console written atConsole]
    rfl
  · obtain ⟨deliveries, same⟩ := simulator.run_retarget budget
    rw [same]
    exact ⟨rfl, rfl, rfl, rfl⟩

/-- A memory of sixteen bytes that holds a program which stores the letter A at the console twice,
as a byte and as a doubleword, and a store in a larger memory that reaches over the console. -/
theorem run_delivers_stores_letter :
    let simulator : Simulator :=
      { configuration := {}
        machine :=
          { memory := ⟨#[0xb7, 0x02, 0x01, 0x00, 0x13, 0x03, 0x10, 0x04,
              0x23, 0x80, 0x62, 0x00, 0x23, 0xb0, 0x62, 0x00]⟩
            sink := some {} } }
    let machine : Machine :=
      { memory := Bytes.zeros 0x10004, registers := Registers.zero.put 5 0xfffc }
    let instruction : Instruction := { operation := .sd, size := 4, operands := ⟨5, 5, 0⟩ }
    (simulator.run 4).1 = ⟨4, 16, .stepLimit⟩ ∧
      (simulator.run 4).2.machine.sink = some ⟨#[⟨0x41, 0x10000⟩, ⟨0x41, 0x10000⟩]⟩ ∧
      (machine.execute instruction).1 = .continued ∧
      (machine.execute instruction).2.memory =
        Bytes.overwrite (Bytes.zeros 0x10004) 0xfffc [0xfc, 0xff, 0, 0, 0, 0, 0, 0] := by
  -- Only the size of the larger memory counts, and its bytes are not to be unfolded.
  generalize zeros : Bytes.zeros 0x10004 = large
  have size : large.size = 0x10004 := by
    rw [← zeros]
    exact Bytes.size_zeros 0x10004
  intro simulator machine instruction
  have summary : (simulator.run 4).1 = ⟨4, 16, .stepLimit⟩ := by decide +kernel
  have heard := (run_delivers_stores simulator 4).2.1 {} rfl
  rw [summary] at heard
  have delivered : simulator.deliveries 4 = [⟨0x41, 0x10000⟩, ⟨0x41, 0x10000⟩] := by
    decide +kernel
  rw [delivered] at heard
  have address : machine.reached instruction .first = 0xfffc := rfl
  have value : machine.registerValue (instruction.register .second) = 0xfffc := rfl
  have elsewhere : machine.reached instruction .first ≠ 0x10000 := by
    rw [address]
    decide
  have inside : (machine.reached instruction .first).toNat + 8 ≤ machine.capacity := by
    rw [address]
    show 0xfffc + 8 ≤ large.size
    omega
  obtain ⟨completed, memory⟩ :=
    (((run_delivers_stores simulator 4).2.2.1 machine instruction 8 rfl).2 elsewhere).2.1 inside
  rw [address, value] at memory
  exact ⟨summary, heard, completed, memory⟩

end Simulator

end Hart
