/-
This file lists the reasons for which the machine does not execute an instruction, and proves that
there are no others and that such an instruction changes nothing. The list is read off the
instruction and the state before the step: which operations are refused, and which accesses leave
memory. It holds for every instruction, also for one built by hand whose flags and operands no word
decodes to.
-/

import Hart.Proofs.Effects

namespace Hart

/-! ### What an instruction asks for -/

/-- How many bytes an operation reads from memory. -/
def Operation.loadWidth? : Operation → Option Nat
  | .lb | .lbu => some 1
  | .lh | .lhu => some 2
  | .lw | .lwu => some 4
  | .ld => some 8
  | _ => none

/-- How many bytes an operation writes to memory. -/
def Operation.storeWidth? : Operation → Option Nat
  | .sb => some 1
  | .sh => some 2
  | .sw => some 4
  | .sd => some 8
  | _ => none

/-- Whether the machine refuses an operation whatever its state. -/
def Operation.Refused (operation : Operation) : Prop :=
  operation = .invalid ∨ operation = .unknown ∨ operation = .ecall ∨ operation = .ebreak

namespace Operation

variable {operation : Operation} {width : Nat}

theorem action?_eq_none_iff : operation.action? = none ↔ operation.Refused := by
  unfold Refused
  cases operation <;> simp [action?]

theorem exists_load_iff :
    (∃ extend, operation.action? = some (.load width extend)) ↔
      operation.loadWidth? = some width := by
  cases operation <;> simp [action?, loadWidth?]

theorem store_iff :
    operation.action? = some (.store width) ↔ operation.storeWidth? = some width := by
  cases operation <;> simp [action?, storeWidth?]

/-- An operation has an action of one kind. -/
theorem storeWidth?_of_load (read : operation.loadWidth? = some width) :
    operation.storeWidth? = none := by
  cases operation <;> first | rfl | cases read

theorem loadWidth?_of_store (written : operation.storeWidth? = some width) :
    operation.loadWidth? = none := by
  cases operation <;> first | rfl | cases written

theorem real_of_load (read : operation.loadWidth? = some width) :
    width ∈ Machine.accessWidths := by
  cases operation <;> cases read <;> decide

theorem real_of_store (written : operation.storeWidth? = some width) :
    width ∈ Machine.accessWidths := by
  cases operation <;> cases written <;> decide

end Operation

namespace Machine

/-- What an instruction reads from a register, whatever a host put into register zero. -/
def registerValue (machine : Machine) (index : RegisterIndex) : UInt64 :=
  if index.val = 0 then 0 else machine.registers.read index

/-- The address that a load or store reaches: a base register plus the immediate, modulo the size of
the address space. -/
def reached (machine : Machine) (instruction : Instruction) (base : Slot) : UInt64 :=
  machine.registerValue (instruction.register base) + instruction.operands.third.toUInt64

/-- Why the machine does not execute an instruction: it refuses the operation, a load ends beyond
memory, or a store ends beyond memory and does not go to the console. The sums are sums of natural
numbers and do not wrap around. -/
def Fails (machine : Machine) (instruction : Instruction) : Trap → Prop
  | .illegalInstruction operation address =>
    instruction.operation.Refused ∧ operation = instruction.operation ∧
      address = instruction.address
  | .memoryFault address width =>
    instruction.operation.loadWidth? = some width ∧ address = machine.reached instruction .second ∧
        machine.capacity < address.toNat + width ∨
      instruction.operation.storeWidth? = some width ∧
        address = machine.reached instruction .first ∧ address ≠ 0x10000 ∧
        machine.capacity < address.toNat + width

variable {machine : Machine} {instruction : Instruction} {trap : Trap}

theorem read_clearZero_eq_registerValue (index : RegisterIndex) :
    machine.registers.clearZero.read index = machine.registerValue index := by
  rw [Registers.read_clearZero]
  unfold registerValue
  simp only [Fin.ext_iff, eq_comm]
  rfl

theorem operand_clearZero (slot : Slot) :
    machine.clearZero.operand instruction slot =
      machine.registerValue (instruction.register slot) :=
  read_clearZero_eq_registerValue _

theorem effectiveAddress_clearZero (base : Slot) :
    machine.clearZero.effectiveAddress instruction base = machine.reached instruction base :=
  congrArg (· + _) (read_clearZero_eq_registerValue _)

theorem fails_of_no_action (missing : instruction.operation.action? = none) :
    machine.clearZero.effect? instruction = .error trap ↔ machine.Fails instruction trap := by
  rw [effect?_of_no_action _ missing]
  constructor
  · intro equal
    cases equal
    exact ⟨Operation.action?_eq_none_iff.mp missing, rfl, rfl⟩
  · intro fails
    cases trap with
    | illegalInstruction operation address =>
      obtain ⟨-, rfl, rfl⟩ := fails
      rfl
    | memoryFault address width =>
      obtain ⟨read, -⟩ | ⟨written, -⟩ := fails
      · obtain ⟨extend, executes⟩ := Operation.exists_load_iff.mpr read
        cases missing.symm.trans executes
      · cases missing.symm.trans (Operation.store_iff.mpr written)

theorem not_refused {action : Action}
    (executes : instruction.operation.action? = some action) :
    ¬instruction.operation.Refused := by
  intro refused
  rw [Operation.action?_eq_none_iff.mpr refused] at executes
  cases executes

theorem fails_load_iff {width : Nat} {extend : UInt64 → UInt64}
    (executes : instruction.operation.action? = some (.load width extend)) :
    machine.Fails instruction trap ↔
      machine.capacity < (machine.reached instruction .second).toNat + width ∧
        trap = .memoryFault (machine.reached instruction .second) width := by
  have read := Operation.exists_load_iff.mp ⟨extend, executes⟩
  constructor
  · intro fails
    cases trap with
    | illegalInstruction operation address => exact absurd fails.1 (not_refused executes)
    | memoryFault address asked =>
      obtain ⟨same, rfl, beyond⟩ | ⟨written, -⟩ := fails
      · cases read.symm.trans same
        exact ⟨beyond, rfl⟩
      · cases (Operation.storeWidth?_of_load read).symm.trans written
  · rintro ⟨beyond, rfl⟩
    exact Or.inl ⟨read, rfl, beyond⟩

theorem fails_store_iff {width : Nat}
    (executes : instruction.operation.action? = some (.store width)) :
    machine.Fails instruction trap ↔
      machine.reached instruction .first ≠ 0x10000 ∧
        machine.capacity < (machine.reached instruction .first).toNat + width ∧
        trap = .memoryFault (machine.reached instruction .first) width := by
  have written := Operation.store_iff.mp executes
  constructor
  · intro fails
    cases trap with
    | illegalInstruction operation address => exact absurd fails.1 (not_refused executes)
    | memoryFault address asked =>
      obtain ⟨read, -⟩ | ⟨same, rfl, elsewhere, beyond⟩ := fails
      · cases (Operation.loadWidth?_of_store written).symm.trans read
      · cases written.symm.trans same
        exact ⟨elsewhere, beyond, rfl⟩
  · rintro ⟨elsewhere, beyond, rfl⟩
    exact Or.inr ⟨written, rfl, elsewhere, beyond⟩

theorem effect?_of_load_iff {width : Nat} {extend : UInt64 → UInt64}
    (executes : instruction.operation.action? = some (.load width extend)) :
    machine.clearZero.effect? instruction = .error trap ↔ machine.Fails instruction trap := by
  have real := Operation.real_of_load (Operation.exists_load_iff.mp ⟨extend, executes⟩)
  have works := effect?_of_load machine.clearZero executes real
  rw [effectiveAddress_clearZero] at works
  rw [fails_load_iff executes, works]
  dsimp only
  by_cases inside :
      (machine.reached instruction .second).toNat + width ≤ machine.clearZero.capacity
  · rw [if_pos inside]
    constructor
    · intro equal
      cases equal
    · intro fails
      exact absurd inside (Nat.not_le.mpr fails.1)
  · rw [if_neg inside]
    constructor
    · intro equal
      cases equal
      exact ⟨Nat.not_le.mp inside, rfl⟩
    · rintro ⟨-, rfl⟩
      rfl

theorem effect?_of_store_iff {width : Nat}
    (executes : instruction.operation.action? = some (.store width)) :
    machine.clearZero.effect? instruction = .error trap ↔ machine.Fails instruction trap := by
  have real := Operation.real_of_store (Operation.store_iff.mp executes)
  have works := effect?_of_store machine.clearZero executes real
  rw [effectiveAddress_clearZero] at works
  rw [fails_store_iff executes, works]
  dsimp only
  by_cases delivered : machine.reached instruction .first = console
  · rw [if_pos delivered]
    constructor
    · intro equal
      cases equal
    · intro fails
      exact absurd delivered fails.1
  · rw [if_neg delivered]
    by_cases inside :
        (machine.reached instruction .first).toNat + width ≤ machine.clearZero.capacity
    · rw [if_pos inside]
      constructor
      · intro equal
        cases equal
      · intro fails
        exact absurd inside (Nat.not_le.mpr fails.2.1)
    · rw [if_neg inside]
      constructor
      · intro equal
        cases equal
        exact ⟨delivered, Nat.not_le.mp inside, rfl⟩
      · rintro ⟨-, -, rfl⟩
        rfl

theorem not_fails {action : Action} (executes : instruction.operation.action? = some action)
    (noLoad : ∀ width extend, action ≠ .load width extend)
    (noStore : ∀ width, action ≠ .store width) : ¬machine.Fails instruction trap := by
  intro fails
  cases trap with
  | illegalInstruction operation address => exact not_refused executes fails.1
  | memoryFault address width =>
    obtain ⟨read, -⟩ | ⟨written, -⟩ := fails
    · obtain ⟨extend, loads⟩ := Operation.exists_load_iff.mpr read
      rw [executes] at loads
      exact noLoad width extend (Option.some.inj loads)
    · have stores := Operation.store_iff.mpr written
      rw [executes] at stores
      exact noStore width (Option.some.inj stores)

theorem effect?_of_other_iff {action : Action}
    (executes : instruction.operation.action? = some action)
    (noLoad : ∀ width extend, action ≠ .load width extend)
    (noStore : ∀ width, action ≠ .store width) :
    machine.clearZero.effect? instruction = .error trap ↔ machine.Fails instruction trap := by
  obtain ⟨effect, works⟩ := exists_effect machine.clearZero executes noLoad noStore
  rw [works]
  constructor
  · intro equal
    cases equal
  · intro fails
    exact absurd fails (not_fails executes noLoad noStore)

/-- Working out an effect fails exactly for the listed reasons. -/
theorem effect?_eq_error_iff :
    machine.clearZero.effect? instruction = .error trap ↔ machine.Fails instruction trap := by
  cases executes : instruction.operation.action? with
  | none => exact fails_of_no_action executes
  | some action =>
    cases action with
    | load width extend => exact effect?_of_load_iff executes
    | store width => exact effect?_of_store_iff executes
    | _ => exact effect?_of_other_iff executes nofun nofun

/-- An instruction fails exactly for the listed reasons, and one that fails changes nothing: the
program counter, the registers, memory and the console are as they were, and register zero is zero.
This is so for instructions built by hand as well as for decoded ones. -/
theorem execute_trapped_iff (machine : Machine) (instruction : Instruction) (trap : Trap) :
    ((machine.execute instruction).1 = .trapped trap ↔ machine.Fails instruction trap) ∧
      ((machine.execute instruction).1 = .trapped trap →
        (machine.execute instruction).2.pc = machine.pc ∧
        (∀ index, index ≠ 0 →
          (machine.execute instruction).2.registers.read index = machine.registers.read index) ∧
        (machine.execute instruction).2.registers.read 0 = 0 ∧
        (machine.execute instruction).2.memory = machine.memory ∧
        (machine.execute instruction).2.sink = machine.sink) := by
  rw [execute_trapped_iff_effect?]
  refine ⟨effect?_eq_error_iff, fun fails => ?_⟩
  have zero := read_zero_execute machine instruction
  rw [execute_of_error fails] at zero ⊢
  refine ⟨rfl, fun index positive => ?_, zero, rfl, rfl⟩
  show machine.registers.clearZero.clearZero.read index = _
  rw [Registers.read_clearZero, if_neg (Ne.symm positive), Registers.read_clearZero,
    if_neg (Ne.symm positive)]

/-- The end of an access is beyond every memory where the sum would wrap around. -/
theorem execute_trapped_iff_wrapping :
    let machine : Machine := { memory := ⟨#[1, 2, 3, 4]⟩ }
    let instruction : Instruction := { operation := .ld, operands := ⟨1, 2, -4⟩ }
    machine.Fails instruction (.memoryFault 0xfffffffffffffffc 8) ∧
      (machine.execute instruction).1 = .trapped (.memoryFault 0xfffffffffffffffc 8) ∧
      (machine.execute instruction).2.pc = 0 ∧
      (machine.execute instruction).2.memory = ⟨#[1, 2, 3, 4]⟩ := by
  intro machine instruction
  have reached : (0xfffffffffffffffc : UInt64) = machine.reached instruction .second := by decide
  have fails : machine.Fails instruction (.memoryFault 0xfffffffffffffffc 8) :=
    Or.inl ⟨rfl, reached, by decide⟩
  have law := execute_trapped_iff machine instruction (.memoryFault 0xfffffffffffffffc 8)
  have trapped := law.1.mpr fails
  obtain ⟨pc, -, -, memory, -⟩ := law.2 trapped
  exact ⟨fails, trapped, pc, memory⟩

end Machine

end Hart
