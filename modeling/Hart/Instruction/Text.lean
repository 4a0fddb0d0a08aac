/-
This file renders instructions as canonical assembly text. Registers are written by number and
immediates as 64-bit two's complement in hexadecimal, so that `-1` reads `0xffffffffffffffff`. The
text does not depend on where the instruction stands.
-/

import Hart.Instruction.Basic
import Hart.Text.Digits

namespace Hart

/-- What is written for an instruction that stands for no operation. -/
def unknownText : String :=
  "unknown"

namespace Instruction

/-- A register by number. -/
def registerText (instruction : Instruction) (slot : Slot) : String :=
  "x" ++ (instruction.register slot).val.repr

/-- An immediate as an unsigned 64-bit number. -/
def immediateText (instruction : Instruction) (slot : Slot) : String :=
  Text.hexLiteral (instruction.immediate slot).toUInt64.toNat

/-- The mnemonic and the operands in the order of the format. An instruction without a format or
without an operation has no operands to show. -/
def text (instruction : Instruction) : String :=
  if instruction.isKnown then
    let mnemonic := instruction.operation.mnemonic
    match instruction.format? with
    | some .r =>
      mnemonic ++ " " ++ instruction.registerText .first ++ ", "
        ++ instruction.registerText .second ++ ", " ++ instruction.registerText .third
    | some .i | some .s | some .b =>
      mnemonic ++ " " ++ instruction.registerText .first ++ ", "
        ++ instruction.registerText .second ++ ", " ++ instruction.immediateText .third
    | some .u | some .j =>
      mnemonic ++ " " ++ instruction.registerText .first ++ ", "
        ++ instruction.immediateText .second
    | none => unknownText
  else unknownText

end Instruction

end Hart
