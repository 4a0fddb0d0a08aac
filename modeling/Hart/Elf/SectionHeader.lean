/-
This file reads the table of section headers. The number of headers stands in the file header, or,
where it is too large for the field there, in the first section header. Sizes and offsets are plain
numbers here, so that no sum of them wraps around.
-/

import Hart.Elf.Header

namespace Hart.Elf

/-- The fields of a section header. -/
structure SectionHeader where
  /-- Where the name starts in the name table. -/
  nameOffset : Nat
  kind : Nat
  /-- Where the section belongs in memory. -/
  address : Nat
  /-- Where the contents stand in the file. -/
  offset : Nat
  size : Nat
  /-- Another section that this one refers to. -/
  link : Nat
  /-- The size of one entry of a table. -/
  entrySize : Nat
deriving DecidableEq

namespace SectionHeader

/-- The kinds of sections that are treated specially. -/
def symbolTable : Nat := 2
def relocationsWithAddends : Nat := 4
def noContents : Nat := 8
def relocations : Nat := 9

/-- Reads the section header at an offset. -/
def read (order : Bytes.Order) (file : ByteArray) (start : Nat) : SectionHeader where
  nameOffset := field order file start 4
  kind := field order file (start + 4) 4
  address := field order file (start + 16) 8
  offset := field order file (start + 24) 8
  size := field order file (start + 32) 8
  link := field order file (start + 40) 4
  entrySize := field order file (start + 56) 8

/-- How many addresses there are. -/
def addressSpace : Nat := 0x10000000000000000

/-- Where the contents end in the file. -/
def fileEnd (entry : SectionHeader) : Nat :=
  entry.offset + entry.size

/-- Whether contents that are there lie inside the file, and the section inside the address space.
Nothing is asked of a section without contents. -/
def isPlaced (entry : SectionHeader) (size : Nat) : Bool :=
  entry.kind == noContents || entry.size == 0
    || (entry.fileEnd ≤ size && entry.address + entry.size < addressSpace)

/-- The contents of a section inside the file. -/
def contents (entry : SectionHeader) (file : ByteArray) : ByteArray :=
  file.extract entry.offset entry.fileEnd

end SectionHeader

namespace Header

/-- How many section headers there are. The first one is always there, even if the count is zero. -/
def sectionTotal (header : Header) (file : ByteArray) : Nat :=
  if header.sectionCount == 0 then
    (SectionHeader.read header.order file header.sectionTable).size
  else header.sectionCount

/-- The section headers in order, if all of them lie inside the file. A file without a table has
none. -/
def sections? (header : Header) (file : ByteArray) : Option (List SectionHeader) :=
  if header.sectionTable = 0 then some []
  else if file.size < header.sectionTable + sectionHeaderSize then none
  else
    let total := header.sectionTotal file
    let count := max total 1
    if total ≤ file.size / sectionHeaderSize
        ∧ header.sectionTable + sectionHeaderSize * count ≤ file.size then
      some ((List.range count).map fun index =>
        SectionHeader.read header.order file (header.sectionTable + sectionHeaderSize * index))
    else none

end Header

end Hart.Elf
