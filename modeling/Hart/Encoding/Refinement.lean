/-
This file settles what `funct3` leaves open. Several opcodes need a look at further bits of the
word: `funct7` or `funct6` tell subtraction from addition and the two right shifts apart, the
opcodes of the formats U and J have a single operation, and of the environment calls only two exact
words count. A refinement sees the instruction as the tables left it and may replace its operation,
adjust an operand or add a flag. An instruction that it rejects keeps its flags and operands.
-/

import Hart.Encoding.Word
import Hart.Encoding.Opcode

namespace Hart

/-- A correction of an instruction by further bits of its word. -/
abbrev Refinement := Word → Instruction → Instruction

namespace Refinement

/-- The immediate keeps its plain twenty bits; execution moves them into place. -/
def lui : Refinement := fun _ instruction =>
  let operands := instruction.operands
  { instruction with
    operation := .lui
    operands := { operands with second := operands.second >>> 12 } }

/-- The immediate stays in place. -/
def auipc : Refinement := fun _ instruction =>
  { instruction with operation := .auipc }

/-- A direct jump. -/
def jal : Refinement := fun _ instruction =>
  { instruction with operation := .jal }

/-- Only `funct3 = 0` is an indirect jump, but every word of the opcode counts as a control
transfer. -/
def jalr : Refinement := fun word instruction =>
  { instruction with
    operation := if word.funct3 = 0 then .jalr else .unknown
    flags := instruction.flags ∪ {.jump} }

/-- The shift that `funct6` makes of a doubleword shift by an immediate. -/
def doublewordShift (funct6 : BitVec 6) : Operation → Operation
  | .slli => if funct6 = 0 then .slli else .unknown
  | .srli => if funct6 = 0 then .srli else if funct6 = 0b010000 then .srai else .unknown
  | operation => operation

/-- Shifts take their amount from the low six bits of the immediate. -/
def opImm : Refinement := fun word instruction =>
  match instruction.operation with
  | .slli | .srli =>
    { instruction with
      operation := doublewordShift word.funct6 instruction.operation
      operands := { instruction.operands with third := Int64.ofNat word.shamt6.toNat } }
  | _ => instruction

/-- The shift that `funct7` makes of a word shift by an immediate. -/
def wordShift (funct7 : BitVec 7) : Operation → Operation
  | .slliw => if funct7 = 0 then .slliw else .unknown
  | .srliw => if funct7 = 0 then .srliw else if funct7 = 0b0100000 then .sraiw else .unknown
  | operation => operation

/-- Word shifts take their amount from the low five bits of the immediate. -/
def opImm32 : Refinement := fun word instruction =>
  match instruction.operation with
  | .slliw | .srliw =>
    { instruction with
      operation := wordShift word.funct7 instruction.operation
      operands := { instruction.operands with third := Int64.ofNat word.shamt5.toNat } }
  | _ => instruction

/-- The operation that `funct7` makes of the one chosen by `funct3`: zero keeps it, and the
alternate value exists for the sum and the logical right shift only. -/
def alternate (sum difference logical arithmetic : Operation) (funct7 : BitVec 7)
    (operation : Operation) : Operation :=
  if funct7 = 0 then operation
  else if funct7 = 0b0100000 then
    if operation = sum then difference
    else if operation = logical then arithmetic
    else .unknown
  else .unknown

/-- Arithmetic on registers. -/
def op : Refinement := fun word instruction =>
  { instruction with
    operation := alternate .add .sub .srl .sra word.funct7 instruction.operation }

/-- Arithmetic on the low words of registers. -/
def op32 : Refinement := fun word instruction =>
  { instruction with
    operation := alternate .addw .subw .srlw .sraw word.funct7 instruction.operation }

/-- Only the two exact words are environment calls; control registers are not supported. -/
def system : Refinement := fun word instruction =>
  { instruction with
    operation :=
      if word = 0x00000073 then .ecall
      else if word = 0x00100073 then .ebreak
      else .unknown }

end Refinement

/-- The refinement of the opcode, if it needs one. -/
def Opcode.refinement? : Opcode → Option Refinement
  | .lui => some Refinement.lui
  | .auipc => some Refinement.auipc
  | .jal => some Refinement.jal
  | .jalr => some Refinement.jalr
  | .opImm => some Refinement.opImm
  | .opImm32 => some Refinement.opImm32
  | .op => some Refinement.op
  | .op32 => some Refinement.op32
  | .system => some Refinement.system
  | .load | .miscMem | .store | .branch => none

end Hart
