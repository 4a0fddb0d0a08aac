/-
This file proves that a listing shows all of the code that it was made from. Each line is read back:
its address ends at the colon and may have blanks in front, and the bytes stand behind it as one
number, which a blank ends. That number is filled up with zeros to two digits for each byte. The
zeros are the only record of how many bytes there are, and without them two entries that end in zero
bytes could not be told apart.

The bytes of the lines, one behind the other, are the code, and the first line has its base.
-/

import Hart.Proofs.Numerals
import Hart.Proofs.Placement
import Hart.Proofs.Spelling

namespace Hart

namespace Listing

/-! ### Reading a line -/

/-- The address and the bytes that a line shows. -/
def readLine (line : String) : UInt64 × List UInt8 :=
  let address := line.toList.takeWhile (· ≠ ':')
  let raw := ((line.toList.dropWhile (· ≠ ':')).drop 2).takeWhile (· ≠ ' ')
  (UInt64.ofNat (Text.readHex (address.filter (· ≠ ' '))),
    Bytes.ofNumber (raw.length / 2) (Text.readHex raw))

namespace Entry

/-- The digits of the raw number of a line. -/
def rawDigits (entry : Entry) : List Char :=
  List.leftpad (2 * entry.bytes.length) '0' (Text.hexDigits entry.raw)

theorem toList_line (entry : Entry) :
    entry.line.toList =
      List.leftpad 8 ' ' (Text.hexDigits entry.address.toNat) ++ ':' :: ' ' ::
        (entry.rawDigits ++ ' ' :: ' ' :: entry.text.toList) := by
  have digits (fill : Char) (width value : Nat) :
      (Text.hexPadded fill width value).toList =
        List.leftpad width fill (Text.hexDigits value) := String.toList_ofList
  rw [line_eq, lead]
  simp only [String.toList_append, digits, List.append_assoc]
  rfl

section

variable {entry : Entry}

/-- Of no more than four bytes the raw number leaves out none. -/
theorem raw_eq (few : entry.bytes.length ≤ 4) : entry.raw = Bytes.littleEndian entry.bytes :=
  congrArg Bytes.littleEndian (List.take_of_length_le few)

theorem length_rawDigits (some : 0 < entry.bytes.length) (few : entry.bytes.length ≤ 4) :
    entry.rawDigits.length = 2 * entry.bytes.length := by
  refine Text.length_leftpad_hexDigits (by omega) ?_
  rw [raw_eq few, Nat.pow_mul]
  exact Bytes.littleEndian_lt entry.bytes

theorem readHex_rawDigits (few : entry.bytes.length ≤ 4) :
    Text.readHex entry.rawDigits = Bytes.littleEndian entry.bytes :=
  (Text.readHex_leftpad _ _).trans (raw_eq few)

/-- A line reads back. -/
theorem readLine_line (some : 0 < entry.bytes.length) (few : entry.bytes.length ≤ 4) :
    readLine entry.line = (entry.address, entry.bytes) := by
  have colon : ':' ∉ List.leftpad 8 ' ' (Text.hexDigits entry.address.toNat) :=
    Text.not_mem_leftpad_blank (by decide) (by decide) 8 _
  have blank : ' ' ∉ entry.rawDigits := fun member =>
    absurd (Text.isHexDigit_of_mem_leftpad _ member) (by decide)
  have address : entry.line.toList.takeWhile (· ≠ ':') =
      List.leftpad 8 ' ' (Text.hexDigits entry.address.toNat) := by
    rw [toList_line]
    exact Text.takeWhile_until colon
  have raw : ((entry.line.toList.dropWhile (· ≠ ':')).drop 2).takeWhile (· ≠ ' ') =
      entry.rawDigits := by
    rw [toList_line, Text.dropWhile_until colon]
    exact Text.takeWhile_until blank
  have count : 2 * entry.bytes.length / 2 = entry.bytes.length :=
    Nat.mul_div_cancel_left _ (by decide)
  unfold readLine
  dsimp only
  rw [address, raw, Text.filter_leftpad_blank, Text.readHex_hexDigits, UInt64.ofNat_toNat,
    length_rawDigits some few, count, readHex_rawDigits few, Bytes.ofNumber_littleEndian]

end

end Entry

/-! ### Reading a listing -/

/-- The base and the code that the lines of a listing show. Without any lines there is no base. -/
def readLines (lines : List String) : Option UInt64 × List UInt8 :=
  let parts := lines.map readLine
  (parts.head?.map Prod.fst, parts.flatMap Prod.snd)

section

variable {code : ByteArray} {base : UInt64} {entry : Entry}

/-- The bytes of an entry are no fewer than one and no more than four. -/
theorem length_bytes_of_mem (member : entry ∈ disassemble code base) :
    0 < entry.bytes.length ∧ entry.bytes.length ≤ 4 := by
  obtain ⟨position, within, rfl⟩ := exists_position_of_mem member
  have positive := toNat_size_pos code base position
  have small := toNat_size_le code base position
  rw [length_bytes_entryAt]
  omega

end

section

variable (code : ByteArray) (base : UInt64)

/-- A listing starts at the base, unless there is nothing to list. -/
theorem head?_disassemble :
    (disassemble code base).head?.map Entry.address =
      if 0 < code.size then some base else none := by
  have walk := walk_disassemble code base
  generalize disassemble code base = entries at walk
  cases walk with
  | ends passed => exact (if_neg (Nat.not_lt.mpr passed)).symm
  | lists inside => exact (congrArg some (UInt64.add_zero base)).trans (if_pos inside).symm

/-- A listing reads back. -/
theorem readLines_disassemble :
    readLines ((disassemble code base).map Entry.line) =
      (if 0 < code.size then some base else none, code.data.toList) := by
  have parts : ((disassemble code base).map Entry.line).map readLine =
      (disassemble code base).map fun entry => (entry.address, entry.bytes) := by
    rw [List.map_map]
    refine List.map_congr_left fun entry member => ?_
    obtain ⟨positive, few⟩ := length_bytes_of_mem member
    exact Entry.readLine_line positive few
  unfold readLines
  dsimp only
  rw [parts, List.head?_map, Option.map_map, List.flatMap_map]
  exact Prod.ext (head?_disassemble code base) (walk_disassemble code base).flatMap_bytes

end

/-- A listing shows everything that it was made from. If the lines of two listings are the same and
there is something to list, the bases and the codes are the same as well. The number that a line has
behind its address has two hexadecimal digits for each byte of the entry, and it is the number that
the bytes write, least significant first. -/
theorem disassemble_lossless (first second : ByteArray) (base other : UInt64)
    (nonempty : 0 < first.size) :
    ((disassemble first base).map Entry.line = (disassemble second other).map Entry.line ↔
        base = other ∧ first = second) ∧
      ∀ entry ∈ disassemble first base,
        entry.line =
            Text.hexPadded ' ' 8 entry.address.toNat ++ ": " ++ String.ofList entry.rawDigits
              ++ "  " ++ entry.text ∧
          entry.rawDigits.length = 2 * entry.bytes.length ∧
          (∀ digit ∈ entry.rawDigits, Text.isHexDigit digit = true) ∧
          Text.readHex entry.rawDigits = Bytes.littleEndian entry.bytes := by
  refine ⟨⟨fun same => ?_, fun ⟨bases, codes⟩ => by rw [bases, codes]⟩, fun entry member => ?_⟩
  · have read := congrArg readLines same
    rw [readLines_disassemble, readLines_disassemble] at read
    obtain ⟨starts, bytes⟩ := Prod.mk.inj read
    obtain rfl : first = second := ByteArray.ext (Array.toList_inj.mp bytes)
    rw [if_pos nonempty, if_pos nonempty] at starts
    exact ⟨Option.some.inj starts, rfl⟩
  · obtain ⟨positive, few⟩ := length_bytes_of_mem member
    exact ⟨rfl, Entry.length_rawDigits positive few, Text.isHexDigit_of_mem_leftpad,
      Entry.readHex_rawDigits few⟩

/-- Two pieces of one word differ by a zero byte, which only the digits of the raw number show. -/
theorem disassemble_lossless_zero :
    let first : ByteArray := ⟨#[0x93, 0x02]⟩
    let second : ByteArray := ⟨#[0x93, 0x02, 0x00]⟩
    let base : UInt64 := 0x1000
    let entry := entryAt second base 0
    (0 < second.size ∧ entry ∈ disassemble second base) ∧
      (disassemble second base).map Entry.line = ["    1000: 000293  unknown"] ∧
      (disassemble second base).map Entry.line ≠ (disassemble first base).map Entry.line ∧
      entry.rawDigits.length = 6 ∧ Text.readHex entry.rawDigits = 0x293 := by
  intro first second base entry
  have nonempty : 0 < second.size := by decide
  have member : entry ∈ disassemble second base := by decide +kernel
  have count : entry.bytes.length = 3 := by decide +kernel
  have number : Bytes.littleEndian entry.bytes = 0x293 := by decide +kernel
  obtain ⟨determined, parts⟩ := disassemble_lossless second first base base nonempty
  obtain ⟨-, length, -, value⟩ := parts entry member
  rw [count] at length
  exact ⟨⟨nonempty, member⟩, by decide +kernel,
    fun same => absurd (determined.mp same).2 (by decide), length, value.trans number⟩

end Listing

end Hart
