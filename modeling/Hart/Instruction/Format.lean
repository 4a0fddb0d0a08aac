/-
This file lists the encoding formats. A format fixes which fields of a word fill the operand slots
of an instruction:

  R: rd, rs1, rs2      I: rd, rs1, immediate      S: rs1, rs2, immediate
  B: rs1, rs2, offset  U: rd, immediate           J: rd, offset
-/

import Hart.Instruction.Flags

namespace Hart

/-- The six encoding formats. -/
inductive Format where
  | r | i | s | b | u | j
deriving DecidableEq, Repr

namespace Format

/-- Every format once. Where several format flags are set, the first in this order counts. -/
def all : List Format :=
  [r, i, s, b, u, j]

/-- The flag that records the format. -/
def flag : Format → Flag
  | r => .rType | i => .iType | s => .sType | b => .bType | u => .uType | j => .jType

/-- How many operand slots the format fills. -/
def operandCount : Format → UInt8
  | r | i | s | b => 3
  | u | j => 2

/-- The flags of a word that is decoded by the format. The two formats with a code offset belong to
control transfers only. -/
def flags : Format → FlagSet
  | r => {.rType}
  | i => {.iType}
  | s => {.sType}
  | b => {.bType, .jump}
  | u => {.uType}
  | j => {.jType, .jump}

end Format

end Hart
