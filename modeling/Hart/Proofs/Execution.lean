/-
This file proves that the machine executes words as the reference does. Executing an instruction
first works out an effect and then carries it out; the reference speaks of results, jumps, branches,
loads and stores. Each kind of effect is one of these, and each opcode has effects of one kind, so
the comparison goes opcode by opcode and never through the single operations.
-/

import Hart.Proofs.Parcels
import Hart.Proofs.Tables
import Hart.Proofs.Traps

namespace Hart

open Reference (Ending State)
open Word (registerOperand signedOperand)

/-- How an answer of the machine looks to the reference. -/
def Machine.seen (answer : Outcome × Machine) : Ending × State :=
  (answer.1.ending, answer.2.view)

/-! ### Operands as registers -/

theorem Instruction.register_eq {instruction : Instruction} {slot : Slot} {field : BitVec 5}
    (named : instruction.operands.get slot = registerOperand field) :
    instruction.register slot = field.toFin := by
  apply Fin.ext
  show ((instruction.operands.get slot).toUInt64 % 32).toNat = field.toNat
  have bound : field.toNat < 32 := field.isLt
  have whole : (registerOperand field).toUInt64.toNat = field.toNat :=
    Nat.mod_eq_of_lt (Nat.lt_trans bound (by decide))
  rw [named, UInt64.toNat_mod, whole]
  exact Nat.mod_eq_of_lt bound

/-! ### The parts of a decoded word -/

theorem address_decodeWord (word : Word) (address : Int64) :
    (decodeWord word address).address = address := by
  cases found : word.opcode? with
  | none =>
    rw [decodeWord_of_opcode?_eq_none found]
    rfl
  | some opcode => rw [decodeWord_of_opcode found]

section Parts

variable {word : Word} {opcode : Opcode} (found : word.opcode? = some opcode) (address : Int64)
include found

theorem operation_decodeWord : (decodeWord word address).operation = opcode.operation word := by
  rw [decodeWord_of_opcode found]

theorem operands_decodeWord : (decodeWord word address).operands = opcode.operands word := by
  rw [decodeWord_of_opcode found]

theorem isJump_decodeWord : (decodeWord word address).isJump = opcode.flags.contains .jump := by
  rw [decodeWord_of_opcode found]
  rfl

theorem register_decodeWord {slot : Slot} {field : BitVec 5}
    (named : (opcode.operands word).get slot = registerOperand field) :
    (decodeWord word address).register slot = field.toFin := by
  refine Instruction.register_eq ?_
  rw [operands_decodeWord found]
  exact named

theorem operand_decodeWord (machine : Machine) {slot : Slot} {field : BitVec 5}
    (named : (opcode.operands word).get slot = registerOperand field) :
    (machine.clearZero.operand (decodeWord word address) slot).toBitVec =
      machine.view.register field := by
  unfold Machine.operand
  rw [register_decodeWord found address named]
  exact Machine.toBitVec_read_clearZero machine field

theorem effectiveAddress_decodeWord (machine : Machine) {base : Slot} {field : BitVec 5}
    (named : (opcode.operands word).get base = registerOperand field) :
    (machine.clearZero.effectiveAddress (decodeWord word address) base).toBitVec =
      machine.view.register field + (opcode.operands word).third.toBitVec := by
  show (machine.clearZero.operand (decodeWord word address) base).toBitVec +
    (decodeWord word address).operands.third.toBitVec = _
  rw [operand_decodeWord found address machine named, operands_decodeWord found]

end Parts

namespace Machine

/-! ### Kinds of effects -/

section Effects

variable {machine : Machine} {instruction : Instruction}

theorem seen_of_ok {effect : Effect}
    (works : machine.clearZero.effect? instruction = .ok effect) :
    seen (machine.execute instruction) =
      (.retired, ((machine.clearZero.apply effect).advance instruction).view) := by
  unfold seen execute
  simp only [works, view_clearZero]
  rfl

theorem seen_of_error {trap : Trap}
    (fails : machine.clearZero.effect? instruction = .error trap) :
    seen (machine.execute instruction) = (Outcome.ending (.trapped trap), machine.view) := by
  unfold seen execute
  simp only [fails, view_clearZero]

/-- An instruction that the machine does not execute is illegal. -/
theorem seen_of_no_action (missing : instruction.operation.action? = none) :
    seen (machine.execute instruction) = (.illegal, machine.view) :=
  seen_of_error (effect?_of_no_action _ missing)

theorem view_advance (plain : instruction.isJump = false) (size : instruction.size = 4) :
    (machine.advance instruction).view = machine.view.next := by
  unfold advance following
  rw [plain, size]
  rfl

theorem view_advance_jump (jumps : instruction.isJump = true) :
    (machine.advance instruction).view = machine.view := by
  unfold advance
  rw [if_pos jumps]

theorem seen_of_result {rd : BitVec 5} {value : UInt64}
    (works : machine.clearZero.effect? instruction = .ok (.result rd.toFin value))
    (plain : instruction.isJump = false) (size : instruction.size = 4) :
    seen (machine.execute instruction) =
      Reference.compute machine.view rd (some value.toBitVec) := by
  rw [seen_of_ok works, view_advance plain size]
  show (Ending.retired, (machine.clearZero.setRegister rd.toFin value).view.next) = _
  rw [view_setRegister, view_clearZero]
  rfl

theorem seen_of_link {rd : BitVec 5} {target : Int64} {back : UInt64}
    (works : machine.clearZero.effect? instruction = .ok (.link target rd.toFin back))
    (jumps : instruction.isJump = true) :
    seen (machine.execute instruction) =
      (.retired, (machine.view.write rd back.toBitVec).goto target.toBitVec) := by
  rw [seen_of_ok works, view_advance_jump jumps]
  show (Ending.retired,
    (machine.clearZero.setRegister rd.toFin back).view.goto target.toBitVec) = _
  rw [view_setRegister, view_clearZero]

theorem seen_of_branch {target : Int64}
    (works : machine.clearZero.effect? instruction = .ok (.branch target))
    (jumps : instruction.isJump = true) :
    seen (machine.execute instruction) = (.retired, machine.view.goto target.toBitVec) := by
  rw [seen_of_ok works, view_advance_jump jumps]
  show (Ending.retired, machine.clearZero.view.goto target.toBitVec) = _
  rw [view_clearZero]

theorem seen_of_fence (works : machine.clearZero.effect? instruction = .ok .none)
    (plain : instruction.isJump = false) (size : instruction.size = 4) :
    seen (machine.execute instruction) = (.retired, machine.view.next) := by
  rw [seen_of_ok works, view_advance plain size]
  show (Ending.retired, machine.clearZero.view.next) = _
  rw [view_clearZero]

theorem seen_of_deliver {address value : UInt64}
    (works : machine.clearZero.effect? instruction =
      .ok (.write (.deliver ⟨value.toUInt8, address⟩)))
    (plain : instruction.isJump = false) (size : instruction.size = 4) :
    seen (machine.execute instruction) =
      (.retired, (machine.view.deliver address.toBitVec value.toBitVec).next) := by
  rw [seen_of_ok works, view_advance plain size]
  show (Ending.retired,
    (machine.clearZero.commit (.deliver ⟨value.toUInt8, address⟩)).view.next) = _
  rw [view_deliver, view_clearZero]

theorem seen_of_memory {start width : Nat} {value : UInt64}
    (works : machine.clearZero.effect? instruction =
      .ok (.write (.memory start (Bytes.ofNumber width value.toNat))))
    (inside : start + width ≤ machine.capacity)
    (plain : instruction.isJump = false) (size : instruction.size = 4) :
    seen (machine.execute instruction) =
      (.retired, (machine.view.put start width value.toBitVec).next) := by
  rw [seen_of_ok works, view_advance plain size]
  show (Ending.retired,
    (machine.clearZero.commit (.memory start (Bytes.ofNumber width value.toNat))).view.next) = _
  rw [view_store machine.clearZero _ _ _ inside, view_clearZero]

theorem following_eq (size : instruction.size = 4) :
    (machine.clearZero.following instruction).toBitVec = machine.view.pc + 4 := by
  unfold following
  rw [size]
  rfl

end Effects

/-! ### Upper immediates and jumps -/

section Opcodes

variable (machine : Machine) {word : Word}

theorem seen_lui (found : word.opcode? = some .lui) :
    seen (machine.execute (decodeWord word machine.pc)) =
      Reference.compute machine.view word.rd (some (Reference.immediateU word)) := by
  have executes : (decodeWord word machine.pc).operation.action? = some .loadUpper := by
    rw [operation_decodeWord found]
    rfl
  have works : machine.clearZero.effect? (decodeWord word machine.pc) =
      .ok (.result word.rd.toFin (signedOperand word.immediateU).toUInt64) := by
    rw [effect?_of_action _ executes]
    show Except.ok (Effect.result ((decodeWord word machine.pc).register .first)
      ((decodeWord word machine.pc).operands.second <<< 12).toUInt64) = _
    rw [register_decodeWord found _ rfl, operands_decodeWord found]
    show Except.ok (Effect.result _ (signedOperand word.upper <<< 12).toUInt64) = _
    rw [signedOperand_upper_shiftLeft]
  exact seen_of_result works (isJump_decodeWord found _) (size_decodeWord word _)

theorem seen_auipc (found : word.opcode? = some .auipc) :
    seen (machine.execute (decodeWord word machine.pc)) =
      Reference.compute machine.view word.rd
        (some (machine.view.pc + Reference.immediateU word)) := by
  have executes : (decodeWord word machine.pc).operation.action? = some .addUpper := by
    rw [operation_decodeWord found]
    rfl
  have works : machine.clearZero.effect? (decodeWord word machine.pc) =
      .ok (.result word.rd.toFin (machine.pc + signedOperand word.immediateU).toUInt64) := by
    rw [effect?_of_action _ executes]
    show Except.ok (Effect.result ((decodeWord word machine.pc).register .first)
      (machine.pc + (decodeWord word machine.pc).operands.second).toUInt64) = _
    rw [register_decodeWord found _ rfl, operands_decodeWord found]
    rfl
  exact seen_of_result works (isJump_decodeWord found _) (size_decodeWord word _)

theorem seen_jal (found : word.opcode? = some .jal) :
    seen (machine.execute (decodeWord word machine.pc)) =
      Reference.jump machine.view word.rd (machine.view.pc + Reference.immediateJ word) := by
  have executes : (decodeWord word machine.pc).operation.action? = some .jump := by
    rw [operation_decodeWord found]
    rfl
  have works : machine.clearZero.effect? (decodeWord word machine.pc) =
      .ok (.link (machine.pc + signedOperand word.immediateJ) word.rd.toFin
        (machine.clearZero.following (decodeWord word machine.pc)).toUInt64) := by
    rw [effect?_of_action _ executes]
    show Except.ok (Effect.link (machine.pc + (decodeWord word machine.pc).operands.second)
      ((decodeWord word machine.pc).register .first) _) = _
    rw [register_decodeWord found _ rfl, operands_decodeWord found]
    rfl
  rw [seen_of_link works (isJump_decodeWord found _)]
  show (Ending.retired, (machine.view.write word.rd
    (machine.clearZero.following (decodeWord word machine.pc)).toBitVec).goto _) = _
  rw [following_eq (size_decodeWord word _)]
  rfl

theorem seen_jalr (found : word.opcode? = some .jalr) :
    seen (machine.execute (decodeWord word machine.pc)) =
      if word.funct3 = 0 then
        Reference.jump machine.view word.rd
          ((machine.view.register word.rs1 + Reference.immediateI word) &&& ~~~1)
      else (.illegal, machine.view) := by
  have operation := operation_decodeWord found machine.pc
  rw [Opcode.operation_jalr] at operation
  by_cases zero : word.funct3 = 0
  · rw [if_pos zero] at operation ⊢
    have executes : (decodeWord word machine.pc).operation.action? = some .jumpRegister := by
      rw [operation]
      rfl
    have works : machine.clearZero.effect? (decodeWord word machine.pc) =
        .ok (.link
          (machine.clearZero.effectiveAddress (decodeWord word machine.pc) .second &&&
            ~~~1).toInt64
          word.rd.toFin (machine.clearZero.following (decodeWord word machine.pc)).toUInt64) := by
      rw [effect?_of_action _ executes]
      show Except.ok (Effect.link _ ((decodeWord word machine.pc).register .first) _) = _
      rw [register_decodeWord found _ rfl]
    rw [seen_of_link works (isJump_decodeWord found _)]
    show (Ending.retired, (machine.view.write word.rd
      (machine.clearZero.following (decodeWord word machine.pc)).toBitVec).goto
        ((machine.clearZero.effectiveAddress (decodeWord word machine.pc) .second).toBitVec &&&
          ~~~1)) = _
    rw [following_eq (size_decodeWord word _), effectiveAddress_decodeWord found _ machine rfl]
    rfl
  · rw [if_neg zero] at operation ⊢
    refine seen_of_no_action ?_
    rw [operation]
    rfl

/-! ### Branches -/

theorem seen_branch (found : word.opcode? = some .branch) :
    seen (machine.execute (decodeWord word machine.pc)) =
      Reference.branch machine.view (Reference.immediateB word)
        (Reference.taken? word.funct3 (machine.view.register word.rs1)
          (machine.view.register word.rs2)) := by
  have operation := operation_decodeWord found machine.pc
  have jumps : (decodeWord word machine.pc).isJump = true := isJump_decodeWord found _
  obtain ⟨condition, executes, decides⟩ | ⟨missing, empty⟩ := branch_action word
  · rw [← operation] at executes
    have taken := decides (machine.clearZero.operand (decodeWord word machine.pc) .first)
      (machine.clearZero.operand (decodeWord word machine.pc) .second)
    rw [operand_decodeWord found _ machine rfl, operand_decodeWord found _ machine rfl] at taken
    have works : machine.clearZero.effect? (decodeWord word machine.pc) =
        if condition (machine.clearZero.operand (decodeWord word machine.pc) .first)
            (machine.clearZero.operand (decodeWord word machine.pc) .second) then
          .ok (.branch (machine.pc + signedOperand word.immediateB))
        else .ok (.branch (machine.clearZero.following (decodeWord word machine.pc))) := by
      rw [effect?_of_action _ executes]
      show (if _ then Except.ok (Effect.branch
        (machine.pc + (decodeWord word machine.pc).operands.third)) else _) = _
      rw [operands_decodeWord found]
      rfl
    rw [taken]
    by_cases holds : condition (machine.clearZero.operand (decodeWord word machine.pc) .first)
        (machine.clearZero.operand (decodeWord word machine.pc) .second)
    · rw [if_pos holds] at works
      rw [holds, seen_of_branch works jumps]
      rfl
    · rw [if_neg holds] at works
      rw [Bool.eq_false_of_not_eq_true holds, seen_of_branch works jumps,
        following_eq (size_decodeWord word _)]
      rfl
  · rw [empty]
    refine seen_of_no_action ?_
    rw [operation]
    exact missing

/-! ### Loads and stores -/

theorem seen_load (found : word.opcode? = some .load) :
    seen (machine.execute (decodeWord word machine.pc)) =
      Reference.load machine.view word.rd word.funct3
        (machine.view.register word.rs1 + Reference.immediateI word) := by
  have operation := operation_decodeWord found machine.pc
  unfold Reference.load
  obtain ⟨width, extend, executes, real, loads⟩ | ⟨missing, empty⟩ := load_action word
  · rw [← operation] at executes
    have works := effect?_of_load machine.clearZero executes real
    have address : machine.view.register word.rs1 + Reference.immediateI word =
        (machine.clearZero.effectiveAddress (decodeWord word machine.pc) .second).toBitVec :=
      (effectiveAddress_decodeWord found machine.pc machine rfl).symm
    have destination : (decodeWord word machine.pc).destination = word.rd.toFin :=
      register_decodeWord found machine.pc rfl
    rw [address, loads]
    rw [destination] at works
    generalize machine.clearZero.effectiveAddress (decodeWord word machine.pc) .second = reached
      at works
    by_cases inside : reached.toNat + width ≤ machine.capacity
    · rw [seen_of_result (works.trans (if_pos inside)) (isJump_decodeWord found _)
        (size_decodeWord word _)]
      exact (if_pos inside).symm
    · rw [seen_of_error (works.trans (if_neg inside))]
      exact (if_neg inside).symm
  · rw [empty]
    refine seen_of_no_action ?_
    rw [operation]
    exact missing

theorem seen_store (found : word.opcode? = some .store) :
    seen (machine.execute (decodeWord word machine.pc)) =
      Reference.store machine.view word.funct3
        (machine.view.register word.rs1 + Reference.immediateS word)
        (machine.view.register word.rs2) := by
  have operation := operation_decodeWord found machine.pc
  have plain : (decodeWord word machine.pc).isJump = false := isJump_decodeWord found _
  have size := size_decodeWord word machine.pc
  unfold Reference.store
  obtain ⟨width, executes, real, row⟩ | ⟨missing, empty⟩ := store_action word
  · rw [← operation] at executes
    have works := effect?_of_store machine.clearZero executes real
    have address : machine.view.register word.rs1 + Reference.immediateS word =
        (machine.clearZero.effectiveAddress (decodeWord word machine.pc) .first).toBitVec :=
      (effectiveAddress_decodeWord found machine.pc machine rfl).symm
    have value : machine.view.register word.rs2 =
        (machine.clearZero.operand (decodeWord word machine.pc) .second).toBitVec :=
      (operand_decodeWord found machine.pc machine rfl).symm
    rw [address, value, row]
    generalize machine.clearZero.effectiveAddress (decodeWord word machine.pc) .first = reached
      at works
    generalize machine.clearZero.operand (decodeWord word machine.pc) .second = stored at works
    by_cases delivered : reached = console
    · have delivered' : reached.toBitVec = 0x10000 := congrArg UInt64.toBitVec delivered
      rw [seen_of_deliver (works.trans (if_pos delivered)) plain size]
      exact (if_pos delivered').symm
    · have delivered' : ¬reached.toBitVec = 0x10000 :=
        fun equal => delivered (UInt64.toBitVec_inj.mp equal)
      have works := works.trans (if_neg delivered)
      refine Eq.trans ?_ (if_neg delivered').symm
      by_cases inside : reached.toNat + width ≤ machine.capacity
      · rw [seen_of_memory (works.trans (if_pos inside)) inside plain size]
        exact (if_pos inside).symm
      · rw [seen_of_error (works.trans (if_neg inside))]
        exact (if_neg inside).symm
  · rw [empty]
    refine seen_of_no_action ?_
    rw [operation]
    exact missing

/-! ### Arithmetic -/

theorem seen_of_registerRow {opcode : Opcode} (found : word.opcode? = some opcode)
    (format : opcode.operands word =
      ⟨registerOperand word.rd, registerOperand word.rs1, registerOperand word.rs2⟩)
    (plain : opcode.flags.contains .jump = false)
    {result : BitVec 64 → BitVec 64 → Option (BitVec 64)}
    (row : RegisterRow (opcode.operation word).action? result) :
    seen (machine.execute (decodeWord word machine.pc)) =
      Reference.compute machine.view word.rd
        (result (machine.view.register word.rs1) (machine.view.register word.rs2)) := by
  rw [← operation_decodeWord found machine.pc] at row
  have destination : (decodeWord word machine.pc).destination = word.rd.toFin :=
    register_decodeWord found machine.pc (by rw [format]; rfl)
  have first : (machine.clearZero.operand (decodeWord word machine.pc) .second).toBitVec =
      machine.view.register word.rs1 :=
    operand_decodeWord found machine.pc machine (by rw [format]; rfl)
  have second : (machine.clearZero.operand (decodeWord word machine.pc) .third).toBitVec =
      machine.view.register word.rs2 :=
    operand_decodeWord found machine.pc machine (by rw [format]; rfl)
  obtain ⟨combine, executes, computes⟩ | ⟨missing, empty⟩ := row
  · have works := effect?_of_action machine.clearZero executes
    unfold effect at works
    rw [destination] at works
    rw [← first, ← second, computes]
    exact seen_of_result works ((isJump_decodeWord found _).trans plain) (size_decodeWord word _)
  · rw [empty]
    exact seen_of_no_action missing

theorem seen_of_immediateRow {opcode : Opcode} (found : word.opcode? = some opcode)
    (first : (opcode.operands word).first = registerOperand word.rd)
    (second : (opcode.operands word).second = registerOperand word.rs1)
    (plain : opcode.flags.contains .jump = false)
    {result : BitVec 64 → Option (BitVec 64)}
    (row : ImmediateRow (opcode.operation word).action? (opcode.operands word).third result) :
    seen (machine.execute (decodeWord word machine.pc)) =
      Reference.compute machine.view word.rd (result (machine.view.register word.rs1)) := by
  rw [← operation_decodeWord found machine.pc, ← operands_decodeWord found machine.pc] at row
  have destination : (decodeWord word machine.pc).destination = word.rd.toFin :=
    register_decodeWord found machine.pc first
  have base : (machine.clearZero.operand (decodeWord word machine.pc) .second).toBitVec =
      machine.view.register word.rs1 := operand_decodeWord found machine.pc machine second
  obtain ⟨combine, executes, computes⟩ | ⟨missing, empty⟩ := row
  · have works := effect?_of_action machine.clearZero executes
    unfold effect at works
    rw [destination] at works
    rw [← base, computes]
    exact seen_of_result works ((isJump_decodeWord found _).trans plain) (size_decodeWord word _)
  · rw [empty]
    exact seen_of_no_action missing

/-! ### Fences and environment calls -/

theorem seen_miscMem (found : word.opcode? = some .miscMem) :
    seen (machine.execute (decodeWord word machine.pc)) =
      if word.funct3 = 0 then (.retired, machine.view.next) else (.illegal, machine.view) := by
  have operation := operation_decodeWord found machine.pc
  rw [Opcode.operation_miscMem] at operation
  by_cases zero : word.funct3 = 0
  · rw [if_pos zero]
    rw [zero] at operation
    have executes : (decodeWord word machine.pc).operation.action? = some .fence := by
      rw [operation]
      rfl
    exact seen_of_fence (effect?_of_action _ executes) (isJump_decodeWord found _)
      (size_decodeWord word _)
  · rw [if_neg zero]
    refine seen_of_no_action ?_
    rw [operation]
    generalize word.funct3 = funct3 at zero
    revert funct3
    decide

theorem seen_system (found : word.opcode? = some .system) :
    seen (machine.execute (decodeWord word machine.pc)) = (.illegal, machine.view) := by
  refine seen_of_no_action ?_
  rw [operation_decodeWord found, Opcode.operation_system]
  by_cases call : word = 0x00000073
  · rw [if_pos call]
    rfl
  · rw [if_neg call]
    by_cases breakpoint : word = 0x00100073
    · rw [if_pos breakpoint]
      rfl
    · rw [if_neg breakpoint]
      rfl

theorem seen_unsupported (missing : word.opcode? = none) :
    seen (machine.execute (decodeWord word machine.pc)) = (.illegal, machine.view) := by
  rw [decodeWord_of_opcode?_eq_none missing]
  exact seen_of_no_action rfl

end Opcodes

end Machine

/-! ### The machine and the reference -/

theorem Reference.step_unsupported {word : Word} (missing : word.opcode? = none) (state : State) :
    Reference.step state word = (.illegal, state) := by
  have other : ∀ opcode : Opcode, ¬Reference.opcode word = opcode.bits := by
    intro opcode low
    have found := Word.opcode?_of_low (low : word.low = opcode.bits)
    rw [missing] at found
    cases found
  unfold Reference.step
  split
  case h_1 low => exact absurd low (other .lui)
  case h_2 low => exact absurd low (other .auipc)
  case h_3 low => exact absurd low (other .jal)
  case h_4 low => exact absurd low (other .jalr)
  case h_5 low => exact absurd low (other .branch)
  case h_6 low => exact absurd low (other .load)
  case h_7 low => exact absurd low (other .store)
  case h_8 low => exact absurd low (other .opImm)
  case h_9 low => exact absurd low (other .op)
  case h_10 low => exact absurd low (other .opImm32)
  case h_11 low => exact absurd low (other .op32)
  case h_12 low => exact absurd low (other .miscMem)
  case h_13 => rfl

namespace Machine

/-- Executing a standard word does what the reference says about its bits. -/
theorem seen_execute (machine : Machine) {word : Word} (standard : word.isStandard) :
    seen (machine.execute (decodeWord word machine.pc)) = Reference.step machine.view word := by
  cases found : word.opcode? with
  | none =>
    rw [seen_unsupported machine found]
    exact (Reference.step_unsupported found machine.view).symm
  | some opcode =>
    have low : Reference.opcode word = opcode.bits := Word.low_of_opcode? standard found
    unfold Reference.step
    rw [low]
    cases opcode with
    | lui => exact seen_lui machine found
    | auipc => exact seen_auipc machine found
    | jal => exact seen_jal machine found
    | jalr => exact seen_jalr machine found
    | branch => exact seen_branch machine found
    | load => exact seen_load machine found
    | store => exact seen_store machine found
    | opImm => exact seen_of_immediateRow machine found rfl rfl rfl (opImm_row word)
    | op => exact seen_of_registerRow machine found rfl rfl (op_row word)
    | opImm32 => exact seen_of_immediateRow machine found rfl rfl rfl (opImm32_row word)
    | op32 => exact seen_of_registerRow machine found rfl rfl (op32_row word)
    | miscMem => exact seen_miscMem machine found
    | system => exact seen_system machine found

/-- Where a standard word lies inside memory, it is the word that is fetched. -/
theorem fetch_eq (machine : Machine) (start : 0 ≤ machine.pc.toInt)
    (finish : machine.pc.toInt + 4 ≤ machine.memory.size)
    (standard : machine.view.fetched.toNat % 4 = 3) :
    machine.fetch = decodeWord machine.view.fetched machine.pc := by
  have index : machine.pc.toNatClampNeg = machine.view.pc.toNat := by
    have signed := machine.pc.toInt_toBitVec
    rw [BitVec.toInt_eq_toNat_cond] at signed
    show machine.pc.toInt.toNat = machine.pc.toBitVec.toNat
    have := machine.pc.toBitVec.isLt
    omega
  have word : wordAt machine.memory machine.pc.toNatClampNeg = machine.view.fetched := by
    rw [wordAt_memory, index]
    rfl
  rw [← word] at standard ⊢
  exact decode_of_isStandard start finish standard

/-- A step that ends as illegal names the address of the word. -/
theorem execute_illegal {machine : Machine} {instruction : Instruction}
    (illegal : (machine.execute instruction).1.ending = .illegal) :
    ∃ operation, (machine.execute instruction).1 =
      .trapped (.illegalInstruction operation instruction.address) := by
  cases works : machine.clearZero.effect? instruction with
  | ok effect =>
    rw [execute_of_ok works] at illegal
    cases illegal
  | error trap =>
    have fails := effect?_eq_error_iff.mp works
    rw [execute_of_error works] at illegal ⊢
    cases trap with
    | illegalInstruction operation address =>
      obtain ⟨-, -, rfl⟩ := fails
      exact ⟨operation, rfl⟩
    | memoryFault address width => cases illegal

/-- One step of the machine on a standard word that lies inside memory is one step of the
reference on the bits of that word: it ends the same way, and program counter, registers, memory and
console are the same afterwards. Register zero is zero, and an illegal word is reported at its own
address. -/
theorem step_eq_reference (machine : Machine) (start : 0 ≤ machine.pc.toInt)
    (finish : machine.pc.toInt + 4 ≤ machine.memory.size)
    (standard : machine.view.fetched.toNat % 4 = 3) :
    (machine.step.1.ending, machine.step.2.view) =
        Reference.step machine.view machine.view.fetched ∧
      machine.step.2.registers.read 0 = 0 ∧
      (machine.step.1.ending = .illegal →
        ∃ operation, machine.step.1 = .trapped (.illegalInstruction operation machine.pc)) := by
  have fetched := machine.fetch_eq start finish standard
  refine ⟨?_, ?_, ?_⟩
  · unfold step
    rw [fetched]
    exact machine.seen_execute standard
  · exact read_zero_execute machine machine.fetch
  · intro illegal
    unfold step at illegal ⊢
    rw [fetched] at illegal ⊢
    have reported := execute_illegal illegal
    rw [address_decodeWord] at reported
    exact reported

/-- A word that adds minus one, at the start of a memory that holds nothing else. -/
theorem step_eq_reference_addi :
    let machine : Machine := { memory := ⟨#[0x93, 0x00, 0xf0, 0xff]⟩ }
    machine.view.fetched = 0xfff00093 ∧
      (machine.step.1.ending, machine.step.2.view) =
        Reference.step machine.view machine.view.fetched := by
  intro machine
  exact ⟨by decide, (step_eq_reference machine (by decide) (by decide) (by decide)).1⟩

end Machine

end Hart
