/-
This file says when working out the effect of an instruction fails and what it yields otherwise.
Loads and stores are the only operations that can fail; the widths that operations ask for all
exist, so a failure is always a matter of the address. Where there is an effect, its kind is settled
by the operation alone.
-/

import Hart.Machine.Step

namespace Hart

/-- The kinds of effects. -/
inductive Effect.Kind where
  | none | result | branch | link | write
deriving DecidableEq

/-- The kind of an effect. -/
def Effect.kind : Effect → Kind
  | none => .none
  | result _ _ => .result
  | branch _ => .branch
  | link _ _ _ => .link
  | write _ => .write

/-- The kind of effect that an action has, whatever the machine it acts on. -/
def Action.kind : Action → Effect.Kind
  | loadUpper | addUpper | load _ _ | immediate _ | register _ => .result
  | jump | jumpRegister => .link
  | branch _ => .branch
  | store _ => .write
  | fence => .none

namespace Machine

variable (machine : Machine) {instruction : Instruction}

theorem effect?_of_action {action : Action}
    (executes : instruction.operation.action? = some action) :
    machine.effect? instruction = machine.effect instruction action := by
  unfold effect?
  rw [executes]

theorem effect?_of_no_action (missing : instruction.operation.action? = none) :
    machine.effect? instruction =
      .error (.illegalInstruction instruction.operation instruction.address) := by
  unfold effect?
  rw [missing]

theorem effect?_of_load {width : Nat} {extend : UInt64 → UInt64}
    (executes : instruction.operation.action? = some (.load width extend))
    (real : width ∈ accessWidths) :
    machine.effect? instruction =
      let address := machine.effectiveAddress instruction .second
      if address.toNat + width ≤ machine.capacity then
        .ok (.result instruction.destination (extend
          (UInt64.ofNat (Bytes.littleEndian (Bytes.slice machine.memory address.toNat width)))))
      else .error (.memoryFault address width) := by
  rw [effect?_of_action _ executes]
  unfold effect
  dsimp only
  rw [load_eq real]
  by_cases inside :
      (machine.effectiveAddress instruction .second).toNat + width ≤ machine.capacity
  · rw [if_pos inside, if_pos inside]
  · rw [if_neg inside, if_neg inside]

theorem effect?_of_store {width : Nat}
    (executes : instruction.operation.action? = some (.store width))
    (real : width ∈ accessWidths) :
    machine.effect? instruction =
      let address := machine.effectiveAddress instruction .first
      let value := machine.operand instruction .second
      if address = console then .ok (.write (.deliver ⟨value.toUInt8, address⟩))
      else if address.toNat + width ≤ machine.capacity then
        .ok (.write (.memory address.toNat (Bytes.ofNumber width value.toNat)))
      else .error (.memoryFault address width) := by
  rw [effect?_of_action _ executes]
  unfold effect
  dsimp only
  rw [write?_eq real]
  by_cases delivered : machine.effectiveAddress instruction .first = console
  · rw [if_pos delivered, if_pos delivered]
  · rw [if_neg delivered, if_neg delivered]
    by_cases inside :
        (machine.effectiveAddress instruction .first).toNat + width ≤ machine.capacity
    · rw [if_pos inside, if_pos inside]
    · rw [if_neg inside, if_neg inside]

/-- A branch leads to its target or to the next instruction, and it always has an effect. -/
theorem effect?_of_branch {condition : UInt64 → UInt64 → Bool}
    (executes : instruction.operation.action? = some (.branch condition)) :
    machine.effect? instruction =
      .ok (.branch
        (if condition (machine.operand instruction .first) (machine.operand instruction .second)
        then machine.pc + instruction.immediate .third
        else machine.following instruction)) := by
  rw [effect?_of_action _ executes]
  unfold effect
  dsimp only
  by_cases holds :
      condition (machine.operand instruction .first) (machine.operand instruction .second)
  · rw [if_pos holds, if_pos holds]
  · rw [if_neg holds, if_neg holds]

/-- Every other action has an effect. -/
theorem exists_effect {action : Action} (executes : instruction.operation.action? = some action)
    (noLoad : ∀ width extend, action ≠ .load width extend)
    (noStore : ∀ width, action ≠ .store width) :
    ∃ effect, machine.effect? instruction = .ok effect := by
  rw [effect?_of_action _ executes]
  cases action with
  | load width extend => exact absurd rfl (noLoad width extend)
  | store width => exact absurd rfl (noStore width)
  | branch condition =>
    rw [← effect?_of_action _ executes, effect?_of_branch _ executes]
    exact ⟨_, rfl⟩
  | _ => exact ⟨_, rfl⟩

/-! ### The kind of an effect -/

/-- An effect is of the kind of its action. -/
theorem kind_of_effect {action : Action} {effect : Effect}
    (works : machine.effect instruction action = .ok effect) : effect.kind = action.kind := by
  unfold Machine.effect at works
  cases action with
  | branch condition =>
    dsimp only at works
    split at works
    · cases works
      rfl
    · cases works
      rfl
  | load width extend =>
    dsimp only at works
    split at works
    · cases works
      rfl
    · cases works
  | store width =>
    dsimp only at works
    split at works
    · cases works
      rfl
    · cases works
  | _ =>
    cases works
    rfl

/-- An instruction with an effect has an action, and the two are of the same kind. -/
theorem exists_action {effect : Effect} (works : machine.effect? instruction = .ok effect) :
    ∃ action, instruction.operation.action? = some action ∧ effect.kind = action.kind := by
  cases executes : instruction.operation.action? with
  | none =>
    rw [effect?_of_no_action _ executes] at works
    cases works
  | some action =>
    rw [effect?_of_action _ executes] at works
    exact ⟨action, rfl, machine.kind_of_effect works⟩

/-! ### Carrying out the effect -/

/-- Moving on changes the program counter at most. -/
theorem advance_eq (instruction : Instruction) :
    machine.advance instruction =
      { machine with
        pc := if instruction.isJump then machine.pc else machine.following instruction } := by
  unfold advance
  split
  · rfl
  · rfl

variable {machine}

theorem execute_of_ok {effect : Effect}
    (works : machine.clearZero.effect? instruction = .ok effect) :
    machine.execute instruction =
      (.continued, ((machine.clearZero.apply effect).advance instruction).clearZero) := by
  unfold execute
  dsimp only
  rw [works]

theorem execute_of_error {trap : Trap}
    (fails : machine.clearZero.effect? instruction = .error trap) :
    machine.execute instruction = (.trapped trap, machine.clearZero.clearZero) := by
  unfold execute
  dsimp only
  rw [fails]

theorem exists_effect_of_continued (completed : (machine.execute instruction).1 = .continued) :
    ∃ effect, machine.clearZero.effect? instruction = .ok effect := by
  cases works : machine.clearZero.effect? instruction with
  | ok effect => exact ⟨effect, rfl⟩
  | error trap =>
    rw [execute_of_error works] at completed
    cases completed

theorem execute_trapped_iff_effect? {trap : Trap} :
    (machine.execute instruction).1 = .trapped trap ↔
      machine.clearZero.effect? instruction = .error trap := by
  cases works : machine.clearZero.effect? instruction with
  | ok effect =>
    rw [execute_of_ok works]
    constructor
    · intro equal
      cases equal
    · intro equal
      cases equal
  | error reason =>
    rw [execute_of_error works]
    constructor
    · intro equal
      cases equal
      rfl
    · intro equal
      cases equal
      rfl

/-- Register zero is zero after every step. -/
theorem read_zero_execute (machine : Machine) (instruction : Instruction) :
    (machine.execute instruction).2.registers.read 0 = 0 := by
  have cleared : ∀ after : Machine, after.clearZero.registers.read 0 = 0 :=
    fun after => Registers.read_clearZero after.registers 0
  cases works : machine.clearZero.effect? instruction with
  | ok effect =>
    rw [execute_of_ok works]
    exact cleared _
  | error trap =>
    rw [execute_of_error works]
    exact cleared _

end Machine

end Hart
