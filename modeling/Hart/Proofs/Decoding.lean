/-
This file says in one equation what decoding makes of a word: the operation, the flags and the
operands are functions of the opcode and the fields. The three passes of the decoder are gone from
it, and so is the marker of an instruction without operation. Everything that is said elsewhere
about decoded instructions starts from this equation.

It also relates operands to fields. An operand is a number of 64 bits with a sign, a field is a run
of bits, and as long as the number lies in the range of the field the two determine each other.
-/

import Mathlib
import Hart.Proofs.Fields

namespace Hart

open Word (registerOperand signedOperand)

/-! ### Operands and fields -/

theorem toBitVec_signedOperand {width : Nat} (field : BitVec width) :
    (signedOperand field).toBitVec = field.signExtend 64 := rfl

theorem toInt_signedOperand {width : Nat} (field : BitVec width) (fits : width ≤ 64) :
    (signedOperand field).toInt = field.toInt :=
  BitVec.toInt_signExtend_of_le fits

/-- The field is the low bits of its operand. -/
theorem setWidth_signedOperand {width : Nat} (field : BitVec width) (fits : width ≤ 64) :
    (signedOperand field).toBitVec.setWidth width = field := by
  rw [toBitVec_signedOperand, ← BitVec.signExtend_eq_setWidth_of_le _ fits]
  apply BitVec.eq_of_toInt_eq
  rw [BitVec.toInt_signExtend_eq_toInt_bmod_of_le _ fits, BitVec.toInt_signExtend_of_le fits,
    BitVec.toInt_bmod_cancel]

/-- A number in the signed range of a field is the operand of its own low bits. -/
theorem signedOperand_setWidth {width : Nat} (operand : Int64) (fits : width < 64)
    (low : -2 ^ width ≤ operand.toInt) (high : operand.toInt < 2 ^ width) :
    signedOperand (operand.toBitVec.setWidth (width + 1)) = operand := by
  apply Int64.toInt.inj
  rw [toInt_signedOperand _ fits, ← BitVec.signExtend_eq_setWidth_of_le _ fits,
    BitVec.toInt_signExtend_eq_toInt_bmod_of_le _ fits, Int64.toInt_toBitVec]
  refine Int.bmod_eq_of_le ?_ ?_
  · rw [Nat.pow_succ]
    push_cast
    omega
  · rw [Nat.pow_succ]
    push_cast
    omega

/-- The field is the low bits of its operand. -/
theorem setWidth_ofNat_toNat {width : Nat} (field : BitVec width) (fits : width ≤ 64) :
    (Int64.ofNat field.toNat).toBitVec.setWidth width = field := by
  show (BitVec.ofNat 64 field.toNat).setWidth width = field
  rw [BitVec.setWidth_ofNat_of_le fits, BitVec.ofNat_toNat, BitVec.setWidth_eq]

theorem toInt_ofNat_toNat {width : Nat} (field : BitVec width) (fits : width < 64) :
    (Int64.ofNat field.toNat).toInt = field.toNat := by
  have small : 2 ^ width ≤ 2 ^ 63 := Nat.pow_le_pow_right (by decide) (Nat.le_of_lt_succ fits)
  exact Int64.toInt_ofNat_of_lt (Nat.lt_of_lt_of_le field.isLt small)

/-- A number in the unsigned range of a field is the operand of its own low bits. -/
theorem ofNat_toNat_setWidth {width : Nat} (operand : Int64) (low : 0 ≤ operand.toInt)
    (high : operand.toInt < 2 ^ width) :
    Int64.ofNat (operand.toBitVec.setWidth width).toNat = operand := by
  have value : (operand.toBitVec.toNat : Int) = operand.toInt := by
    have signed := operand.toInt_toBitVec
    rw [BitVec.toInt_eq_toNat_cond] at signed
    omega
  have small : operand.toBitVec.toNat < 2 ^ width := by
    rw [← value] at high
    exact_mod_cast high
  apply Int64.toBitVec_inj.mp
  rw [BitVec.toNat_setWidth, Nat.mod_eq_of_lt small]
  exact (BitVec.ofNat_toNat 64 _).trans (BitVec.setWidth_eq _)

/-- Twenty bits that are moved up by twelve. -/
theorem toInt_upper (upper : BitVec 20) : (upper ++ 0#12).toInt = 4096 * upper.toInt := by
  rw [BitVec.toInt_append]
  exact Int.add_zero _

theorem toInt_immediateU (word : Word) : word.immediateU.toInt = 4096 * word.upper.toInt :=
  toInt_upper word.upper

/-- The low bits of a multiple of a power of two are zero. -/
theorem extractLsb'_of_multiple {count : Nat} (fits : count ≤ 64) {operand : Int64}
    (multiple : operand.toInt % 2 ^ count = 0) :
    operand.toBitVec.extractLsb' 0 count = BitVec.ofNat count 0 := by
  have whole : (2 ^ count : Int) ∣ 2 ^ 64 := pow_dvd_pow 2 fits
  have signed : (2 ^ count : Int) ∣ operand.toInt := Int.dvd_of_emod_eq_zero multiple
  have unsigned : (2 ^ count : Int) ∣ operand.toBitVec.toNat := by
    rw [← Int64.toInt_toBitVec, BitVec.toInt_eq_toNat_cond] at signed
    split at signed
    · exact signed
    · exact (Int.dvd_iff_dvd_of_dvd_sub (by simpa using whole)).mp signed
  have divides : 2 ^ count ∣ operand.toBitVec.toNat := by exact_mod_cast unsigned
  apply BitVec.eq_of_toNat_eq
  rw [BitVec.extractLsb'_toNat, Nat.shiftRight_zero, Nat.mod_eq_zero_of_dvd divides,
    BitVec.toNat_ofNat, Nat.zero_mod]

/-- A number whose lowest bits are zero is a multiple. -/
theorem toInt_append_zero {width count : Nat} (bits : BitVec width) :
    (bits ++ BitVec.ofNat count 0).toInt % 2 ^ count = 0 := by
  rw [BitVec.toInt_append]
  by_cases empty : width = 0
  · simp [empty]
  · simp [empty]

/-- Moving the immediate of format U down by twelve bits gives the plain twenty bits. -/
theorem signedOperand_immediateU_shiftRight (word : Word) :
    signedOperand word.immediateU >>> 12 = signedOperand word.upper := by
  apply Int64.toBitVec_inj.mp
  show (word.immediateU.signExtend 64).sshiftRight 12 = word.upper.signExtend 64
  apply BitVec.eq_of_toInt_eq
  rw [BitVec.toInt_sshiftRight, BitVec.toInt_signExtend_of_le (by decide),
    BitVec.toInt_signExtend_of_le (by decide), toInt_immediateU, Int.shiftRight_eq_div_pow]
  omega

/-- Moving the plain twenty bits up again gives the immediate of format U back. -/
theorem signedOperand_upper_shiftLeft (word : Word) :
    signedOperand word.upper <<< 12 = signedOperand word.immediateU := by
  apply Int64.toBitVec_inj.mp
  show (word.upper.signExtend 64) <<< 12 = word.immediateU.signExtend 64
  apply BitVec.eq_of_toInt_eq
  rw [BitVec.shiftLeft_eq_mul_twoPow, BitVec.toInt_mul, BitVec.toInt_signExtend_of_le (by decide),
    BitVec.toInt_signExtend_of_le (by decide), toInt_immediateU, Int.mul_comm]
  have low : -524288 ≤ word.upper.toInt := BitVec.le_toInt word.upper
  have high : word.upper.toInt < 524288 := BitVec.toInt_lt
  have scale : (BitVec.twoPow 64 12).toInt = 4096 := by decide
  rw [scale]
  refine Int.bmod_eq_of_le ?_ ?_
  · omega
  · omega

/-! ### What an opcode makes of a word -/

/-- The operation that takes the place of a missing one. -/
def Operation.settled : Operation → Operation
  | .invalid => .unknown
  | operation => operation

theorem Instruction.settled_eq (instruction : Instruction) :
    instruction.settled = { instruction with operation := instruction.operation.settled } := by
  obtain ⟨operation, _, _, _, _, _⟩ := instruction
  cases operation <;> rfl

namespace Opcode

/-- The operation of a word. -/
def operation (opcode : Opcode) (word : Word) : Operation :=
  Operation.settled <|
    match opcode with
    | lui => .lui
    | auipc => .auipc
    | jal => .jal
    | jalr => if word.funct3 = 0 then .jalr else .unknown
    | opImm => Refinement.doublewordShift word.funct6 (opImm.proposal word)
    | opImm32 => Refinement.wordShift word.funct7 (opImm32.proposal word)
    | op => Refinement.alternate .add .sub .srl .sra word.funct7 (op.proposal word)
    | op32 => Refinement.alternate .addw .subw .srlw .sraw word.funct7 (op32.proposal word)
    | system =>
      if word = 0x00000073 then .ecall else if word = 0x00100073 then .ebreak else .unknown
    | opcode => opcode.proposal word

/-! ### The operation in terms of the fields -/

section Fields

variable (word : Word)

theorem operation_load :
    load.operation word = ((loadTable.get word.funct3.toFin).getD .invalid).settled := rfl

theorem operation_miscMem :
    miscMem.operation word = ((miscMemTable.get word.funct3.toFin).getD .invalid).settled := rfl

theorem operation_store :
    store.operation word = ((storeTable.get word.funct3.toFin).getD .invalid).settled := rfl

theorem operation_branch :
    branch.operation word = ((branchTable.get word.funct3.toFin).getD .invalid).settled := rfl

theorem operation_opImm :
    opImm.operation word =
      (Refinement.doublewordShift word.funct6
        ((opImmTable.get word.funct3.toFin).getD .invalid)).settled := rfl

theorem operation_opImm32 :
    opImm32.operation word =
      (Refinement.wordShift word.funct7
        ((opImm32Table.get word.funct3.toFin).getD .invalid)).settled := rfl

theorem operation_op :
    op.operation word =
      (Refinement.alternate .add .sub .srl .sra word.funct7
        ((opTable.get word.funct3.toFin).getD .invalid)).settled := rfl

theorem operation_op32 :
    op32.operation word =
      (Refinement.alternate .addw .subw .srlw .sraw word.funct7
        ((op32Table.get word.funct3.toFin).getD .invalid)).settled := rfl

theorem operation_jalr :
    jalr.operation word = (if word.funct3 = 0 then Operation.jalr else .unknown).settled := rfl

theorem operation_system :
    system.operation word =
      (if word = 0x00000073 then Operation.ecall else if word = 0x00100073 then .ebreak
        else .unknown).settled := rfl

end Fields

/-- The flags of a word. -/
def flags : Opcode → FlagSet
  | jalr => jalr.format.flags ∪ {.jump}
  | opcode => opcode.format.flags

/-- Whether the third operand is the amount of a shift by an immediate. -/
def ShiftsBy (word : Word) : Prop :=
  word.funct3 = 1 ∨ word.funct3 = 5

instance (word : Word) : Decidable (ShiftsBy word) :=
  inferInstanceAs (Decidable (word.funct3 = 1 ∨ word.funct3 = 5))

/-- The operands of a word. -/
def operands (word : Word) : Opcode → Operands
  | lui => ⟨registerOperand word.rd, signedOperand word.upper, 0⟩
  | opImm =>
    ⟨registerOperand word.rd, registerOperand word.rs1,
      if ShiftsBy word then Int64.ofNat word.shamt6.toNat else signedOperand word.immediateI⟩
  | opImm32 =>
    ⟨registerOperand word.rd, registerOperand word.rs1,
      if ShiftsBy word then Int64.ofNat word.shamt5.toNat else signedOperand word.immediateI⟩
  | opcode => opcode.format.operands word

theorem operands_opImm (word : Word) :
    opImm.operands word =
      ⟨registerOperand word.rd, registerOperand word.rs1,
        if ShiftsBy word then Int64.ofNat word.shamt6.toNat
        else signedOperand word.immediateI⟩ := rfl

theorem operands_opImm32 (word : Word) :
    opImm32.operands word =
      ⟨registerOperand word.rd, registerOperand word.rs1,
        if ShiftsBy word then Int64.ofNat word.shamt5.toNat
        else signedOperand word.immediateI⟩ := rfl

end Opcode

theorem funct3_cases (funct3 : BitVec 3) :
    funct3 = 0 ∨ funct3 = 1 ∨ funct3 = 2 ∨ funct3 = 3 ∨ funct3 = 4 ∨ funct3 = 5 ∨ funct3 = 6 ∨
      funct3 = 7 := by
  revert funct3
  decide

/-! ### Reserved values of the refining fields -/

namespace Refinement

/-- Two values of the field keep or replace the operation; every other value is reserved. -/
theorem alternate_of_reserved {funct7 : BitVec 7} (plain : funct7 ≠ 0)
    (other : funct7 ≠ 0b0100000) (sum difference logical arithmetic operation : Operation) :
    alternate sum difference logical arithmetic funct7 operation = .unknown :=
  (if_neg plain).trans (if_neg other)

theorem doublewordShift_slli {funct6 : BitVec 6} (plain : funct6 ≠ 0) :
    doublewordShift funct6 .slli = .unknown :=
  if_neg plain

theorem doublewordShift_srli {funct6 : BitVec 6} (plain : funct6 ≠ 0)
    (arithmetic : funct6 ≠ 0b010000) : doublewordShift funct6 .srli = .unknown :=
  (if_neg plain).trans (if_neg arithmetic)

theorem wordShift_slliw {funct7 : BitVec 7} (plain : funct7 ≠ 0) :
    wordShift funct7 .slliw = .unknown :=
  if_neg plain

theorem wordShift_srliw {funct7 : BitVec 7} (plain : funct7 ≠ 0)
    (arithmetic : funct7 ≠ 0b0100000) : wordShift funct7 .srliw = .unknown :=
  (if_neg plain).trans (if_neg arithmetic)

end Refinement

/-! ### The refinements of the two opcodes with shifts -/

theorem Refinement.opImm_eq (word : Word) (instruction : Instruction) :
    opImm word instruction =
      { instruction with
        operation := doublewordShift word.funct6 instruction.operation
        operands := { instruction.operands with
          third :=
            if instruction.operation = .slli ∨ instruction.operation = .srli then
              Int64.ofNat word.shamt6.toNat
            else instruction.operands.third } } := by
  obtain ⟨operation, _, _, _, _, _⟩ := instruction
  cases operation <;> rfl

theorem Refinement.opImm32_eq (word : Word) (instruction : Instruction) :
    opImm32 word instruction =
      { instruction with
        operation := wordShift word.funct7 instruction.operation
        operands := { instruction.operands with
          third :=
            if instruction.operation = .slliw ∨ instruction.operation = .srliw then
              Int64.ofNat word.shamt5.toNat
            else instruction.operands.third } } := by
  obtain ⟨operation, _, _, _, _, _⟩ := instruction
  cases operation <;> rfl

theorem Opcode.proposal_opImm_isShift (word : Word) :
    (opImm.proposal word = .slli ∨ opImm.proposal word = .srli) ↔ ShiftsBy word := by
  unfold proposal ShiftsBy
  generalize word.funct3 = funct3
  revert funct3
  decide

theorem Opcode.proposal_opImm32_isShift (word : Word) :
    (opImm32.proposal word = .slliw ∨ opImm32.proposal word = .srliw) ↔ ShiftsBy word := by
  unfold proposal ShiftsBy
  generalize word.funct3 = funct3
  revert funct3
  decide

/-! ### The equation -/

/-- What a word of an opcode decodes to. -/
theorem decodeWord_of_opcode {word : Word} {opcode : Opcode} (found : word.opcode? = some opcode)
    (address : Int64) :
    decodeWord word address =
      ⟨opcode.operation word, address, 4, opcode.flags, opcode.format.operandCount,
        opcode.operands word⟩ := by
  unfold decodeWord
  rw [found]
  cases opcode with
  | lui =>
    show (Refinement.lui word (Opcode.lui.draft word address)).settled = _
    rw [Instruction.settled_eq, Opcode.operands, ← signedOperand_immediateU_shiftRight]
    rfl
  | opImm =>
    show (Refinement.opImm word (Opcode.opImm.draft word address)).settled = _
    rw [Instruction.settled_eq, Refinement.opImm_eq]
    simp only [Opcode.draft, Opcode.proposal_opImm_isShift]
    rfl
  | opImm32 =>
    show (Refinement.opImm32 word (Opcode.opImm32.draft word address)).settled = _
    rw [Instruction.settled_eq, Refinement.opImm32_eq]
    simp only [Opcode.draft, Opcode.proposal_opImm32_isShift]
    rfl
  | _ => exact Instruction.settled_eq _

/-- What a word without a supported opcode decodes to. -/
theorem decodeWord_of_opcode?_eq_none {word : Word} (missing : word.opcode? = none)
    (address : Int64) : decodeWord word address = .unknown address 4 := by
  unfold decodeWord
  rw [missing]

theorem size_decodeWord (word : Word) (address : Int64) : (decodeWord word address).size = 4 := by
  cases found : word.opcode? with
  | none =>
    rw [decodeWord_of_opcode?_eq_none found]
    rfl
  | some opcode => rw [decodeWord_of_opcode found]

end Hart
