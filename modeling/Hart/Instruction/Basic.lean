/-
This file defines decoded instructions. An operand slot holds either a register number or an
immediate; which one is decided by the format and is not stored with the operand. Instructions may
also be built by hand with arbitrary contents, so reading a slot as a register is total.
-/

import Hart.Instruction.Operation
import Hart.Instruction.Format

namespace Hart

/-- A position in the operand list. -/
inductive Slot where
  | first | second | third
deriving DecidableEq, Repr

/-- The three operand slots. Slots that a format leaves unused are zero. -/
structure Operands where
  first : Int64 := 0
  second : Int64 := 0
  third : Int64 := 0
deriving DecidableEq

/-- The contents of a slot. -/
@[inline] def Operands.get (operands : Operands) : Slot → Int64
  | .first => operands.first
  | .second => operands.second
  | .third => operands.third

/-- The number of a general purpose register. -/
abbrev RegisterIndex := Fin 32

/-- A decoded or hand-built instruction. -/
structure Instruction where
  operation : Operation := .invalid
  /-- Where the instruction was fetched. -/
  address : Int64 := 0
  /-- How many bytes the instruction takes. -/
  size : UInt8 := 0
  flags : FlagSet := ∅
  operandCount : UInt8 := 0
  operands : Operands := {}
deriving DecidableEq

namespace Instruction

/-- An instruction of the given size about which nothing else is known. -/
def unknown (address : Int64) (size : UInt8) : Instruction :=
  { operation := .unknown, address, size }

/-- The format recorded in the flags. -/
def format? (instruction : Instruction) : Option Format :=
  Format.all.find? fun format => instruction.flags.contains format.flag

/-- A slot read as a register: the low five bits. -/
@[inline] def register (instruction : Instruction) (slot : Slot) : RegisterIndex :=
  ⟨((instruction.operands.get slot).toUInt64 % 32).toNat, by
    rw [UInt64.toNat_mod]
    exact Nat.mod_lt _ (by decide)⟩

/-- A slot read as an immediate. -/
@[inline] def immediate (instruction : Instruction) (slot : Slot) : Int64 :=
  instruction.operands.get slot

/-- The register that receives a result. -/
@[inline] def destination (instruction : Instruction) : RegisterIndex :=
  instruction.register .first

/-- Whether the operation sets the program counter itself. -/
def isJump (instruction : Instruction) : Bool :=
  instruction.flags.contains .jump

/-- Whether the instruction was a compressed parcel. -/
def isCompressed (instruction : Instruction) : Bool :=
  instruction.flags.contains .compressed

/-- Whether the instruction stands for an operation of the instruction set. -/
def isKnown (instruction : Instruction) : Bool :=
  instruction.operation.isKnown

end Instruction

end Hart
