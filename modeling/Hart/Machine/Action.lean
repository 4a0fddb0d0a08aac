/-
This file says what each operation does, in a few shapes: the operations of one shape differ only in
a width or in a function on register values. Operations outside the table are those that the machine
refuses to execute.
-/

import Hart.Machine.Arithmetic
import Hart.Instruction.Operation

namespace Hart

/-- The shapes of what an operation does. -/
inductive Action where
  /-- Writes an immediate moved up by twelve bits. -/
  | loadUpper
  /-- Writes the program counter plus an immediate. -/
  | addUpper
  /-- Jumps by an offset and links. -/
  | jump
  /-- Jumps to a register plus an immediate and links. -/
  | jumpRegister
  /-- Jumps by an offset if two registers satisfy the condition. -/
  | branch (condition : UInt64 → UInt64 → Bool)
  /-- Reads memory and writes the value, extended to the width of a register. -/
  | load (width : Nat) (extend : UInt64 → UInt64)
  /-- Writes the low bytes of a register to memory. -/
  | store (width : Nat)
  /-- Combines a register with an immediate. -/
  | immediate (combine : UInt64 → UInt64 → UInt64)
  /-- Combines two registers. -/
  | register (combine : UInt64 → UInt64 → UInt64)
  /-- Orders memory accesses. With a single hart there is nothing to order. -/
  | fence

open Arithmetic in
/-- What an operation does, if the machine executes it. -/
def Operation.action? : Operation → Option Action
  | .invalid | .unknown | .ecall | .ebreak => none
  | .lui => some .loadUpper
  | .auipc => some .addUpper
  | .jal => some .jump
  | .jalr => some .jumpRegister
  | .beq => some (.branch fun first second => first == second)
  | .bne => some (.branch fun first second => first != second)
  | .blt => some (.branch lessSigned)
  | .bge => some (.branch fun first second => !lessSigned first second)
  | .bltu => some (.branch lessUnsigned)
  | .bgeu => some (.branch fun first second => !lessUnsigned first second)
  | .lb => some (.load 1 signExtend8)
  | .lh => some (.load 2 signExtend16)
  | .lw => some (.load 4 signExtend32)
  | .ld => some (.load 8 id)
  | .lbu => some (.load 1 id)
  | .lhu => some (.load 2 id)
  | .lwu => some (.load 4 id)
  | .sb => some (.store 1)
  | .sh => some (.store 2)
  | .sw => some (.store 4)
  | .sd => some (.store 8)
  | .addi => some (.immediate (· + ·))
  | .slti => some (.immediate fun first second => ofBool (lessSigned first second))
  | .sltiu => some (.immediate fun first second => ofBool (lessUnsigned first second))
  | .xori => some (.immediate (· ^^^ ·))
  | .ori => some (.immediate (· ||| ·))
  | .andi => some (.immediate (· &&& ·))
  | .slli => some (.immediate shiftLeft)
  | .srli => some (.immediate shiftRight)
  | .srai => some (.immediate shiftRightArithmetic)
  | .add => some (.register (· + ·))
  | .sub => some (.register (· - ·))
  | .sll => some (.register shiftLeft)
  | .slt => some (.register fun first second => ofBool (lessSigned first second))
  | .sltu => some (.register fun first second => ofBool (lessUnsigned first second))
  | .xor => some (.register (· ^^^ ·))
  | .srl => some (.register shiftRight)
  | .sra => some (.register shiftRightArithmetic)
  | .or => some (.register (· ||| ·))
  | .and => some (.register (· &&& ·))
  | .addiw => some (.immediate addWord)
  | .slliw => some (.immediate shiftLeftWord)
  | .srliw => some (.immediate shiftRightWord)
  | .sraiw => some (.immediate shiftRightArithmeticWord)
  | .addw => some (.register addWord)
  | .subw => some (.register subWord)
  | .sllw => some (.register shiftLeftWord)
  | .srlw => some (.register shiftRightWord)
  | .sraw => some (.register shiftRightArithmeticWord)
  | .fence => some .fence

end Hart
