/-
This file decodes with guards. The table of an opcode is looked up by number, an operand is replaced
by position, and a buffer is asked for the byte that tells the length and then for all four.

A number from three bits finds its place in every table, and an offset that a signed number of 64
bits can state is far enough from where a sum overflows. So decoding with guards is decoding without
them, at every offset of every buffer.
-/

import Hart.Proofs.GuardedFields
import Hart.Proofs.Parcels

namespace Hart

namespace Guarded

open Word (registerOperand signedOperand)

/-! ### Words -/

/-- The operands that a format takes from the fields. -/
def Fields.operands (fields : Fields) : Format → Operands
  | .r => ⟨Int64.ofNat fields.rd.toNat, Int64.ofNat fields.rs1.toNat, Int64.ofNat fields.rs2.toNat⟩
  | .i =>
    ⟨Int64.ofNat fields.rd.toNat, Int64.ofNat fields.rs1.toNat, signedOperand fields.immediateI⟩
  | .s =>
    ⟨Int64.ofNat fields.rs1.toNat, Int64.ofNat fields.rs2.toNat, signedOperand fields.immediateS⟩
  | .b =>
    ⟨Int64.ofNat fields.rs1.toNat, Int64.ofNat fields.rs2.toNat, signedOperand fields.immediateB⟩
  | .u => ⟨Int64.ofNat fields.rd.toNat, signedOperand fields.immediateU, 0⟩
  | .j => ⟨Int64.ofNat fields.rd.toNat, signedOperand fields.immediateJ, 0⟩

/-- The operation that the table of the opcode proposes, looked up by number. -/
def proposal? (opcode : Opcode) (fields : Fields) : Option Operation :=
  match opcode.table? with
  | some table => do
    let entry ← table[fields.funct3.toNat]?
    return entry.getD .invalid
  | none => return .invalid

/-- The instruction before refinement. -/
def draft? (opcode : Opcode) (fields : Fields) (address : Int64) : Option Instruction := do
  let operation ← proposal? opcode fields
  return {
    operation
    address
    size := 4
    flags := opcode.format.flags
    operandCount := opcode.format.operandCount
    operands := fields.operands opcode.format }

/-- The refinements. Three of them replace an operand by position. The others compare fields and
choose an operation. -/
def refine? (opcode : Opcode) (fields : Fields) (instruction : Instruction) : Option Instruction :=
  match opcode with
  | .lui => do
    let upper ← operand? instruction.operands 1
    let plain ← shiftRightArithmetic? upper.toBitVec 12
    let operands ← replace? instruction.operands (.ofBitVec plain) 1
    return { instruction with operation := .lui, operands }
  | .opImm =>
    match instruction.operation with
    | .slli | .srli => do
      let operation :=
        Refinement.doublewordShift (fields.funct6.setWidth 6) instruction.operation
      let operands ← replace? instruction.operands (Int64.ofNat fields.shamt6.toNat) 2
      return { instruction with operation, operands }
    | _ => return instruction
  | .opImm32 =>
    match instruction.operation with
    | .slliw | .srliw => do
      let operation := Refinement.wordShift (fields.funct7.setWidth 7) instruction.operation
      let operands ← replace? instruction.operands (Int64.ofNat fields.shamt5.toNat) 2
      return { instruction with operation, operands }
    | _ => return instruction
  | other =>
    match other.refinement? with
    | some refine => return refine fields.word instruction
    | none => return instruction

/-- The instruction that a word stands for. -/
def decodeWord? (word : Word) (address : Int64) : Option Instruction := do
  let fields ← fields? word
  match Opcode.ofNat? fields.major.toNat with
  | none => return .unknown address 4
  | some opcode => do
    let draft ← draft? opcode fields address
    let refined ← refine? opcode fields draft
    return refined.settled

section

variable (word : Word)

/-- A field of at most eight bits keeps its number in a byte. -/
theorem toNat_byteField {count : Nat} (field : BitVec count) (fits : count ≤ 8) :
    (field.setWidth 8).toNat = field.toNat := by
  have bound : 2 ^ count ≤ 2 ^ 8 := Nat.pow_le_pow_right (by decide) fits
  rw [BitVec.toNat_setWidth]
  exact Nat.mod_eq_of_lt (Nat.lt_of_lt_of_le field.isLt bound)

/-- A field of at most eight bits keeps its bits in a byte. -/
theorem setWidth_byteField {count : Nat} (field : BitVec count) (fits : count ≤ 8) :
    (field.setWidth 8).setWidth count = field := by
  rw [BitVec.setWidth_setWidth_of_le _ fits, BitVec.setWidth_eq]

theorem operands_of (format : Format) :
    (Fields.of word).operands format = format.operands word := by
  have register : ∀ field : BitVec 5,
      Int64.ofNat (field.setWidth 8).toNat = registerOperand field := fun field =>
    congrArg Int64.ofNat (toNat_byteField field (by decide))
  have immediate : ∀ {width : Nat} (field : BitVec width), width ≤ 32 →
      signedOperand (field.signExtend 32) = signedOperand field := fun field fits =>
    Int64.toBitVec_inj.mp (signExtend_signExtend field fits)
  cases format <;>
    simp only [Fields.operands, Fields.of, Format.operands, register, immediate, Nat.reduceLeDiff]

theorem proposal?_of (opcode : Opcode) :
    proposal? opcode (Fields.of word) = some (opcode.proposal word) := by
  unfold proposal? Opcode.proposal
  cases opcode.table? with
  | none => rfl
  | some table =>
    have number : (Fields.of word).funct3.toNat = word.funct3.toNat :=
      toNat_byteField word.funct3 (by decide)
    have inside : word.funct3.toNat < 8 := word.funct3.isLt
    dsimp only
    rw [number, Vector.getElem?_eq_getElem inside]
    rfl

theorem draft?_of (opcode : Opcode) (address : Int64) :
    draft? opcode (Fields.of word) address = some (opcode.draft word address) := by
  unfold draft? Opcode.draft
  rw [proposal?_of, operands_of]
  rfl

theorem refine?_of (opcode : Opcode) (instruction : Instruction) :
    refine? opcode (Fields.of word) instruction =
      some (match opcode.refinement? with
        | some refine => refine word instruction
        | none => instruction) := by
  have qualifier : (Fields.of word).funct6.setWidth 6 = word.funct6 :=
    setWidth_byteField word.funct6 (by decide)
  have qualifier' : (Fields.of word).funct7.setWidth 7 = word.funct7 :=
    setWidth_byteField word.funct7 (by decide)
  have amount : (Fields.of word).shamt6.toNat = word.shamt6.toNat :=
    toNat_byteField word.shamt6 (by decide)
  have amount' : (Fields.of word).shamt5.toNat = word.shamt5.toNat :=
    toNat_byteField word.shamt5 (by decide)
  cases opcode with
  | lui =>
    have moved (upper : Int64) : Int64.ofBitVec (upper.toBitVec.sshiftRight 12) = upper >>> 12 :=
      rfl
    have taken : operand? instruction.operands 1 = some instruction.operands.second := rfl
    unfold refine?
    dsimp only
    rw [bind_of_eq_some taken,
      bind_of_eq_some (shiftRightArithmetic?_of_lt _ (by decide : 12 < 64)), moved]
    rfl
  | opImm =>
    unfold refine?
    dsimp only
    rw [qualifier, amount]
    -- Whether an operand is replaced is decided by the operation alone.
    obtain ⟨operation, address, size, flags, count, operands⟩ := instruction
    cases operation <;> rfl
  | opImm32 =>
    unfold refine?
    dsimp only
    rw [qualifier', amount']
    obtain ⟨operation, address, size, flags, count, operands⟩ := instruction
    cases operation <;> rfl
  | _ => rfl

theorem decodeWord?_eq (address : Int64) :
    decodeWord? word address = some (decodeWord word address) := by
  have number : (Fields.of word).major.toNat = word.major.toNat :=
    toNat_byteField word.major (by decide)
  unfold decodeWord? decodeWord Word.opcode?
  rw [bind_of_eq_some (fields?_eq word), number]
  cases Opcode.ofNat? word.major.toNat with
  | none => rfl
  | some opcode =>
    dsimp only
    rw [bind_of_eq_some (draft?_of word opcode address),
      bind_of_eq_some (refine?_of word opcode (opcode.draft word address))]
    cases opcode.refinement? with
    | none => rfl
    | some refine => rfl

end

/-! ### Buffers -/

/-- The instruction at an offset of a buffer, with how many bytes it takes. Four bytes are asked
for, and what is there if there are fewer is decided by the answer. -/
def decode? (buffer : ByteArray) (offset : Int64) : Option (Instruction × UInt8) :=
  if 0 ≤ offset ∧ offset.toNatClampNeg < buffer.size then do
    let first ← byte? buffer offset.toNatClampNeg
    if first &&& 3 = 3 then do
      let stop ← sum? offset.toNatClampNeg 4
      match window? buffer offset.toNatClampNeg stop with
      | some bytes => do
        let instruction ← decodeWord? (BitVec.ofNat 32 (Bytes.littleEndian bytes)) offset
        return (instruction, 4)
      | none => return (.unknown offset 4, 4)
    else return ({ Instruction.unknown offset 2 with flags := {.compressed} }, 2)
  else return (.unknown offset 2, 2)

/-- Decoding never looks beyond the buffer, and the number of bytes that it returns beside the
instruction is the size that the instruction records. -/
theorem decode?_eq (buffer : ByteArray) (offset : Int64) :
    decode? buffer offset = some (decode buffer offset, (decode buffer offset).size) := by
  have bounded : offset.toNatClampNeg + 4 < UInt64.size := by
    have := offset.toNatClampNeg_lt
    have limit : 2 ^ 63 + 4 ≤ UInt64.size := by decide
    omega
  have parcel := parcel_decode buffer offset
  unfold decode?
  generalize decode buffer offset = instruction at parcel ⊢
  cases parcel with
  | outside absent => exact if_neg absent
  | compressed present marked =>
    rw [if_pos present, bind_of_eq_some (byte?_of_lt present.2)]
    exact if_neg marked
  | incomplete present standard short =>
    rw [if_pos present, bind_of_eq_some (byte?_of_lt present.2), if_pos standard,
      bind_of_eq_some (sum?_of_lt bounded), window?_of_lt (Nat.not_le.mp short)]
    rfl
  | whole present standard inside =>
    rw [if_pos present, bind_of_eq_some (byte?_of_lt present.2), if_pos standard,
      bind_of_eq_some (sum?_of_lt bounded), window?_of_le inside]
    dsimp only
    rw [bind_of_eq_some (decodeWord?_eq _ offset), size_decodeWord]
    rfl

/-- The instruction at the program counter. -/
def fetch? (machine : Machine) : Option Instruction := do
  let (instruction, _) ← decode? machine.memory machine.pc
  return instruction

theorem fetch?_eq (machine : Machine) : fetch? machine = some machine.fetch := by
  unfold fetch?
  rw [decode?_eq]
  rfl

end Guarded

end Hart
