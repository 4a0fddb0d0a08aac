/-
This file lists code. The listing walks over the code by the sizes that decoding reports, so a
compressed parcel or an incomplete word at the end shows up as an unknown entry and does not stop
the walk. A line shows the address, the raw bytes as one number, and the instruction with the
register names of the calling convention; the offsets of branches and jumps are resolved to
addresses.
-/

import Hart.Encoding.Decode
import Hart.Instruction.Text
import Hart.Machine.Register

namespace Hart

/-- One entry of a listing. -/
structure Listing.Entry where
  /-- Where the bytes belong in memory. -/
  address : UInt64
  bytes : List UInt8
  instruction : Instruction
deriving DecidableEq

namespace Listing

namespace Entry

/-- Where a branch or a direct jump leads. -/
def target? (entry : Entry) : Option UInt64 :=
  match entry.instruction.format? with
  | some .b => some (entry.address + (entry.instruction.immediate .third).toUInt64)
  | some .j => some (entry.address + (entry.instruction.immediate .second).toUInt64)
  | _ => none

/-- The bytes as one little-endian number. Of more than four bytes the first four count. -/
def raw (entry : Entry) : Nat :=
  Bytes.littleEndian (entry.bytes.take 4)

/-- A register by its name in the calling convention. -/
def registerText (entry : Entry) (slot : Slot) : String :=
  registerNames.get (entry.instruction.register slot)

/-- The instruction as the listing shows it. -/
def text (entry : Entry) : String :=
  let instruction := entry.instruction
  if instruction.isKnown then
    let mnemonic := instruction.operation.mnemonic
    match instruction.format?, entry.target? with
    | some .r, _ =>
      mnemonic ++ " " ++ entry.registerText .first ++ ", " ++ entry.registerText .second ++ ", "
        ++ entry.registerText .third
    | some .b, some target =>
      mnemonic ++ " " ++ entry.registerText .first ++ ", " ++ entry.registerText .second ++ ", "
        ++ Text.hexLiteral target.toNat
    | some .j, some target =>
      mnemonic ++ " " ++ entry.registerText .first ++ ", " ++ Text.hexLiteral target.toNat
    | some .i, _ | some .s, _ =>
      mnemonic ++ " " ++ entry.registerText .first ++ ", " ++ entry.registerText .second ++ ", "
        ++ instruction.immediateText .third
    | some .u, _ =>
      mnemonic ++ " " ++ entry.registerText .first ++ ", " ++ instruction.immediateText .second
    | _, _ => unknownText
  else unknownText

/-- The line of the entry. The address is aligned to eight columns, and the raw number has two
digits for each byte. -/
def line (entry : Entry) : String :=
  Text.hexPadded ' ' 8 entry.address.toNat ++ ": "
    ++ Text.hexPadded '0' (2 * entry.bytes.length) entry.raw ++ "  " ++ entry.text

end Entry

/-- The entry at an offset of the code. At the end of the code the bytes may be fewer than the
instruction takes. -/
def entryAt (code : ByteArray) (base : UInt64) (offset : Nat) : Entry :=
  let instruction := decode code (Int64.ofNat offset)
  let address := base + UInt64.ofNat offset
  { address
    bytes := (code.extract offset (offset + instruction.size.toNat)).data.toList
    instruction := { instruction with address := address.toInt64 } }

/-- The entries from an offset on, after those already found. An instruction takes at least one
byte, so as many rounds suffice as there are bytes left. -/
def entriesFrom (code : ByteArray) (base : UInt64) (found : Array Entry) (offset : Nat) :
    (rounds : Nat) → Array Entry
  | 0 => found
  | rounds + 1 =>
    if offset < code.size then
      let entry := entryAt code base offset
      entriesFrom code base (found.push entry) (offset + entry.instruction.size.toNat) rounds
    else found

end Listing

/-- The listing of code that belongs at an address. -/
def disassemble (code : ByteArray) (base : UInt64) : List Listing.Entry :=
  (Listing.entriesFrom code base #[] 0 code.size).toList

end Hart
