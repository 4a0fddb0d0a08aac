/-
This file decodes words and the contents of a byte buffer. Decoding never fails: whatever is not an
encoding of the supported set becomes an unknown instruction that says how many bytes to skip.

A word is decoded in three passes. The format of its opcode fixes operands and flags, the table of
the opcode proposes an operation, and the refinement of the opcode settles the rest. A word that is
left without an operation is unknown.
-/

import Hart.Encoding.Refinement
import Hart.Bytes.Number
import Hart.Bytes.Buffer

namespace Hart

/-- A register field as an operand. -/
@[inline] def Word.registerOperand (field : BitVec 5) : Int64 :=
  Int64.ofNat field.toNat

/-- An immediate field as an operand, extended by its sign. -/
@[inline] def Word.signedOperand {width : Nat} (field : BitVec width) : Int64 :=
  Int64.ofInt field.toInt

open Word in
/-- The operand slots of a word under a format. -/
def Format.operands (word : Word) : Format → Operands
  | .r => ⟨registerOperand word.rd, registerOperand word.rs1, registerOperand word.rs2⟩
  | .i => ⟨registerOperand word.rd, registerOperand word.rs1, signedOperand word.immediateI⟩
  | .s => ⟨registerOperand word.rs1, registerOperand word.rs2, signedOperand word.immediateS⟩
  | .b => ⟨registerOperand word.rs1, registerOperand word.rs2, signedOperand word.immediateB⟩
  | .u => ⟨registerOperand word.rd, signedOperand word.immediateU, 0⟩
  | .j => ⟨registerOperand word.rd, signedOperand word.immediateJ, 0⟩

/-- The opcode of a word, if it is a supported one. -/
def Word.opcode? (word : Word) : Option Opcode :=
  Opcode.ofNat? word.major.toNat

/-- The operation that the table of the opcode proposes. -/
def Opcode.proposal (opcode : Opcode) (word : Word) : Operation :=
  match opcode.table? with
  | some table => (table.get word.funct3.toFin).getD .invalid
  | none => .invalid

/-- The instruction before refinement. -/
def Opcode.draft (opcode : Opcode) (word : Word) (address : Int64) : Instruction where
  operation := opcode.proposal word
  address
  size := 4
  flags := opcode.format.flags
  operandCount := opcode.format.operandCount
  operands := opcode.format.operands word

/-- An instruction that was left without an operation is unknown. -/
def Instruction.settled (instruction : Instruction) : Instruction :=
  match instruction.operation with
  | .invalid => { instruction with operation := .unknown }
  | _ => instruction

/-- The instruction that a word fetched from an address stands for. The low two bits of the word are
not looked at. -/
def decodeWord (word : Word) (address : Int64) : Instruction :=
  match word.opcode? with
  | none => .unknown address 4
  | some opcode =>
    let draft := opcode.draft word address
    match opcode.refinement? with
    | some refine => (refine word draft).settled
    | none => draft.settled

/-- The word whose four bytes start at an index. -/
def wordAt (buffer : ByteArray) (start : Nat) : Word :=
  BitVec.ofNat 32 (Bytes.littleEndian (Bytes.slice buffer start 4))

/-- The instruction at an offset. Beyond the buffer there is an unknown instruction of two bytes. A
parcel whose low bits mark it as compressed is unknown too, and a standard word that the buffer
holds only in part is unknown with its full size. -/
def decode (buffer : ByteArray) (offset : Int64) : Instruction :=
  let start := offset.toNatClampNeg
  if 0 ≤ offset ∧ start < buffer.size then
    if Bytes.byteAt buffer start &&& 3 = 3 then
      if start + 4 ≤ buffer.size then decodeWord (wordAt buffer start) offset
      else .unknown offset 4
    else { Instruction.unknown offset 2 with flags := {.compressed} }
  else .unknown offset 2

end Hart
