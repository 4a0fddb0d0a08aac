/-
This file holds the major opcodes with what each one fixes about its words: the format of the
operands and, where the field `funct3` alone tells the operations apart or at least begins to, the
table of operations.
-/

import Hart.Instruction.Basic

namespace Hart

/-- The major opcodes of the supported instruction set. -/
inductive Opcode where
  /-- Loads. -/
  | load
  /-- Memory ordering. -/
  | miscMem
  /-- Arithmetic with an immediate. -/
  | opImm
  /-- Upper immediate added to the program counter. -/
  | auipc
  /-- Word arithmetic with an immediate. -/
  | opImm32
  /-- Stores. -/
  | store
  /-- Arithmetic on registers. -/
  | op
  /-- Load of an upper immediate. -/
  | lui
  /-- Word arithmetic on registers. -/
  | op32
  /-- Conditional branches. -/
  | branch
  /-- Indirect jumps. -/
  | jalr
  /-- Direct jumps. -/
  | jal
  /-- Environment calls. -/
  | system
deriving DecidableEq, Repr

namespace Opcode

/-- The number that stands for the opcode in a word. -/
def value : Opcode → Nat
  | load => 0b00000
  | miscMem => 0b00011
  | opImm => 0b00100
  | auipc => 0b00101
  | opImm32 => 0b00110
  | store => 0b01000
  | op => 0b01100
  | lui => 0b01101
  | op32 => 0b01110
  | branch => 0b11000
  | jalr => 0b11001
  | jal => 0b11011
  | system => 0b11100

/-- The opcode that a number stands for. The other numbers are not assigned or belong to extensions
that are not supported. -/
def ofNat? : Nat → Option Opcode
  | 0b00000 => some load
  | 0b00011 => some miscMem
  | 0b00100 => some opImm
  | 0b00101 => some auipc
  | 0b00110 => some opImm32
  | 0b01000 => some store
  | 0b01100 => some op
  | 0b01101 => some lui
  | 0b01110 => some op32
  | 0b11000 => some branch
  | 0b11001 => some jalr
  | 0b11011 => some jal
  | 0b11100 => some system
  | _ => none

theorem ofNat?_value (opcode : Opcode) : ofNat? opcode.value = some opcode := by
  cases opcode <;> rfl

theorem value_of_ofNat? {number : Nat} {opcode : Opcode} (found : ofNat? number = some opcode) :
    opcode.value = number := by
  unfold ofNat? at found
  split at found <;> cases found <;> rfl

/-- The format of the opcode's words. -/
def format : Opcode → Format
  | op | op32 => .r
  | load | miscMem | opImm | opImm32 | jalr | system => .i
  | store => .s
  | branch => .b
  | auipc | lui => .u
  | jal => .j

/-- Operations by `funct3`. -/
abbrev Table := Vector (Option Operation) 8

/-- Loads by width and extension. -/
def loadTable : Table := #v[
  some .lb, some .lh, some .lw, some .ld, some .lbu, some .lhu, some .lwu, none]

/-- Of the memory ordering operations only the plain fence is supported. -/
def miscMemTable : Table := #v[
  some .fence, none, none, none, none, none, none, none]

/-- Arithmetic with an immediate. The entries of the shifts are settled by further bits. -/
def opImmTable : Table := #v[
  some .addi, some .slli, some .slti, some .sltiu, some .xori, some .srli, some .ori, some .andi]

/-- Word arithmetic with an immediate. Only addition and shifts have a word form. -/
def opImm32Table : Table := #v[
  some .addiw, some .slliw, none, none, none, some .srliw, none, none]

/-- Stores by width. -/
def storeTable : Table := #v[
  some .sb, some .sh, some .sw, some .sd, none, none, none, none]

/-- Arithmetic on registers. -/
def opTable : Table := #v[
  some .add, some .sll, some .slt, some .sltu, some .xor, some .srl, some .or, some .and]

/-- Word arithmetic on registers. -/
def op32Table : Table := #v[
  some .addw, some .sllw, none, none, none, some .srlw, none, none]

/-- Branches by condition. -/
def branchTable : Table := #v[
  some .beq, some .bne, none, none, some .blt, some .bge, some .bltu, some .bgeu]

/-- The table of the opcode, if `funct3` selects among its operations. -/
def table? : Opcode → Option Table
  | load => some loadTable
  | miscMem => some miscMemTable
  | opImm => some opImmTable
  | opImm32 => some opImm32Table
  | store => some storeTable
  | op => some opTable
  | op32 => some op32Table
  | branch => some branchTable
  | auipc | lui | jalr | jal | system => none

end Opcode

end Hart
