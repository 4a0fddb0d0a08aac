/-
This file proves that a listing shows what the machine executes. The listing walks over the code of
an image by offsets from its start and only afterwards says where the code belongs; the machine
decodes at an address in the middle of its memory, in front of whatever stands there. For every
entry that has all its bytes the two agree.

An entry without all its bytes is the end of the code, cut off in the middle of an instruction. The
listing cannot tell what is meant there, and the machine reads on in whatever memory holds next.
-/

import Hart.Proofs.Loading
import Hart.Proofs.Placement
import Hart.Proofs.Walk

namespace Hart

open Bytes (byteAt slice)

/-! ### The entries of a listing -/

namespace Listing

variable {code : ByteArray} {base : UInt64} {entry : Entry}

/-- An entry with all its bytes ends inside the code, and its bytes are those of the code there. -/
theorem bytes_of_complete {position : Nat} (within : position < code.size)
    (complete : (entryAt code base position).bytes.length =
      (entryAt code base position).instruction.size.toNat) :
    position + (decode code (Int64.ofNat position)).size.toNat ≤ code.size ∧
      (entryAt code base position).bytes =
        slice code position (decode code (Int64.ofNat position)).size.toNat := by
  have inside : position + (decode code (Int64.ofNat position)).size.toNat ≤ code.size :=
    le_of_complete within complete
  exact ⟨inside, Bytes.toList_extract inside⟩

theorem toNat_address {position : Nat} (small : base.toNat + position < 2 ^ 63) :
    (entryAt code base position).address.toNat = base.toNat + position := by
  show (base + UInt64.ofNat position).toNat = _
  have sum : base.toNat + position < 2 ^ 64 := Nat.lt_trans small (by decide)
  have offset : (UInt64.ofNat position).toNat = position :=
    UInt64.toNat_ofNat_of_lt (Nat.lt_of_le_of_lt (Nat.le_add_left _ _) sum)
  rw [UInt64.toNat_add, offset]
  exact Nat.mod_eq_of_lt sum

end Listing

/-- An address as a program counter. -/
theorem toInt64_eq_ofNat (address : UInt64) : address.toInt64 = Int64.ofNat address.toNat := by
  apply Int64.toBitVec_inj.mp
  exact ((BitVec.ofNat_toNat 64 address.toBitVec).trans (BitVec.setWidth_eq _)).symm

/-! ### What an image leaves in memory -/

namespace Machine

variable {machine : Machine} {image : Image}

/-- After an image is installed, memory holds its code where the image says. -/
theorem slice_install (fits : image.address.toNat + image.code.size ≤ machine.capacity)
    {position count : Nat} (inside : position + count ≤ image.code.size) :
    slice (machine.install image).2.memory (image.address.toNat + position) count =
      slice image.code position count := by
  refine Bytes.slice_congr fun index bound => ?_
  have covered : image.Covers (image.address.toNat + position + index) := by
    unfold Image.Covers
    omega
  have offset :
      image.address.toNat + position + index - image.address.toNat = position + index := by omega
  rw [byteAt_install fits, if_pos covered, offset]

/-- What a listing shows is what the machine executes. An image that fits is installed, whatever
memory held before, and after that every entry of its listing that has all its bytes is in memory:
its bytes stand at its address, and with the program counter there the machine fetches the very
instruction of the entry, address and operands included. No buffer has more bytes than a signed
number of 64 bits can count, so no address of code is negative as a program counter. -/
theorem fetch_listed (machine : Machine) (image : Image) (small : machine.capacity < 2 ^ 63)
    (fits : image.fits machine.capacity = true) :
    (machine.install image).1 = .ok () ∧
      ∀ entry ∈ disassemble image.code image.address,
        entry.bytes.length = entry.instruction.size.toNat →
          let installed := (machine.install image).2
          { installed with pc := entry.address.toInt64 }.fetch = entry.instruction ∧
            entry.address.toNat + entry.bytes.length ≤ installed.memory.size ∧
            slice installed.memory entry.address.toNat entry.bytes.length = entry.bytes := by
  have inside : image.address.toNat + image.code.size ≤ machine.capacity := of_decide_eq_true fits
  refine ⟨by rw [install_of_fits inside], fun entry member complete => ?_⟩
  intro installed
  obtain ⟨position, within, rfl⟩ := Listing.exists_position_of_mem member
  obtain ⟨ends, bytes⟩ := Listing.bytes_of_complete within complete
  have address : (Listing.entryAt image.code image.address position).address.toNat =
      image.address.toNat + position := Listing.toNat_address (by omega)
  have size : installed.memory.size = machine.capacity := machine.capacity_install image
  have stands : slice installed.memory (image.address.toNat + position)
        (decode image.code (Int64.ofNat position)).size.toNat =
      slice image.code position (decode image.code (Int64.ofNat position)).size.toNat :=
    slice_install inside ends
  refine ⟨?_, ?_, ?_⟩
  · have moved := decode_moved (by omega) (by omega) ends (by omega) stands
    unfold fetch
    rw [Listing.instruction_entryAt, toInt64_eq_ofNat, address]
    exact moved
  · rw [complete, address, size]
    show image.address.toNat + position + (decode image.code _).size.toNat ≤ _
    omega
  · rw [complete, address, bytes]
    exact stands

/-- Code with a compressed parcel in front and a word that is cut off at its end, put over a memory
that was in use. The word between them is the second of three entries. -/
theorem fetch_listed_between :
    let machine : Machine := { memory := ⟨#[7, 7, 7, 7, 7, 7, 7, 7, 7, 7, 7, 7, 7, 7, 7, 7]⟩ }
    let image : Image := ⟨0, 4, ⟨#[0x01, 0x00, 0x93, 0x00, 0xf0, 0xff, 0x13, 0x00]⟩⟩
    let entry := Listing.entryAt image.code image.address 2
    (machine.capacity < 2 ^ 63 ∧ image.fits machine.capacity = true ∧
        entry ∈ disassemble image.code image.address ∧
        (disassemble image.code image.address).length = 3 ∧
        entry.bytes.length = entry.instruction.size.toNat) ∧
      entry.address = 6 ∧ entry.bytes = [0x93, 0x00, 0xf0, 0xff] ∧
      entry.instruction.operation = .addi ∧
      { (machine.install image).2 with pc := entry.address.toInt64 }.fetch = entry.instruction := by
  intro machine image entry
  have small : machine.capacity < 2 ^ 63 := by decide
  have fits : image.fits machine.capacity = true := by decide
  have member : entry ∈ disassemble image.code image.address := by decide +kernel
  have complete : entry.bytes.length = entry.instruction.size.toNat := by decide +kernel
  obtain ⟨fetched, -, -⟩ := (fetch_listed machine image small fits).2 entry member complete
  exact ⟨⟨small, fits, member, by decide +kernel, complete⟩, by decide, by decide +kernel,
    by decide +kernel, fetched⟩

end Machine

end Hart
