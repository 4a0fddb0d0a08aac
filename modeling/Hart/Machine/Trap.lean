/-
This file lists the reasons for which an instruction is not executed. Both name the place that the
host has to look at: the address of the instruction, or the address of the access.
-/

import Hart.Instruction.Basic
import Hart.Text.Digits

namespace Hart

/-- Why an instruction was not executed. -/
inductive Trap where
  /-- The operation has no meaning on this machine: a word that is no encoding, or an environment
  call. -/
  | illegalInstruction (operation : Operation) (address : Int64)
  /-- A load or store outside memory, or of a width that does not exist. -/
  | memoryFault (address : UInt64) (width : Nat)
deriving DecidableEq

/-- The text shown for a trap. -/
def Trap.message : Trap → String
  | .illegalInstruction operation address =>
    "illegal instruction " ++ operation.name ++ " at " ++ Text.hexLiteral address.toUInt64.toNat
  | .memoryFault address width =>
    "memory access of " ++ width.repr ++ " bytes at " ++ Text.hexLiteral address.toNat
      ++ " is out of range"

end Hart
