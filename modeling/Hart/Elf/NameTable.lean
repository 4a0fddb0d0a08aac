/-
This file reads names out of string tables. A table is a run of text in which every name ends at a
zero byte or at the end of the table. A name is found by the position at which it starts, and that
may be the middle of a longer name: two names may share their end.
-/

import Hart.Elf.SectionHeader

namespace Hart.Elf

/-- The contents of a string table. -/
abbrev NameTable := ByteArray

/-- Whether a byte continues a character that an earlier byte began. -/
def continuesCharacter (byte : UInt8) : Bool :=
  byte &&& 0xc0 == 0x80

/-- Where the name that starts at a position ends, among the next `left` bytes. -/
def NameTable.nameEnd (table : NameTable) (position : Nat) : (left : Nat) → Nat
  | 0 => position
  | left + 1 =>
    if Bytes.byteAt table position = 0 then position else nameEnd table (position + 1) left

/-- The bytes of a name, if a name may start at the position: not beyond the table, and not inside a
character. -/
def NameTable.name? (table : NameTable) (position : Nat) : Option (List UInt8) :=
  if table.size < position || continuesCharacter (Bytes.byteAt table position) then none
  else
    let last := table.nameEnd position (table.size - position)
    some (table.extract position last).data.toList

/-- The name of the section that holds the code. -/
def textName : List UInt8 :=
  ".text".toUTF8.data.toList

/-- The index that stands for an index too large for its field. The true one is the link of the
first section header. -/
def extendedIndex : Nat := 0xffff

/-- The string table that an index names. Without such a section the table is empty. A table that is
there has to lie inside the file and to be valid text. -/
def nameTable? (file : ByteArray) (sections : List SectionHeader) (index : Nat) :
    Option NameTable :=
  let index :=
    if index = extendedIndex then (sections.head?.map SectionHeader.link).getD sections.length
    else index
  match sections[index]? with
  | none => some .empty
  | some entry =>
    let text := entry.contents file
    if entry.isPlaced file.size ∧ entry.fileEnd ≤ file.size ∧ text.validateUTF8 then some text
    else none

end Hart.Elf
