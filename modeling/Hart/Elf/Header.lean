/-
This file reads the header at the start of an executable file. The first sixteen bytes say that the
file is an ELF file, of which class, and in which byte order all numbers after them are written.
Fields that do not matter for finding the code are not looked at.
-/

import Hart.Bytes.Number
import Hart.Bytes.Buffer

namespace Hart.Elf

/-- The bytes that every ELF file starts with. -/
def magic : List UInt8 :=
  [0x7f, 0x45, 0x4c, 0x46]

/-- Whether the file starts with the magic bytes. -/
def hasMagic (file : ByteArray) : Bool :=
  magic.length ≤ file.size && Bytes.slice file 0 magic.length == magic

/-- Whether the file is of the 64-bit class. -/
def isClass64 (file : ByteArray) : Bool :=
  4 < file.size && Bytes.byteAt file 4 == 2

/-- The byte order that the file announces. -/
def byteOrder? (file : ByteArray) : Option Bytes.Order :=
  match (Bytes.byteAt file 5).toNat with
  | 1 => some .little
  | 2 => some .big
  | _ => none

/-- The number in a field of `width` bytes. -/
def field (order : Bytes.Order) (file : ByteArray) (offset width : Nat) : Nat :=
  order.number (Bytes.slice file offset width)

/-- The sizes of the file header, of a program header and of a section header. -/
def headerSize : Nat := 64
def programHeaderSize : Nat := 56
def sectionHeaderSize : Nat := 64

/-- The fields of the file header that lead to the code. -/
structure Header where
  order : Bytes.Order
  /-- What the file is for. -/
  fileType : Nat
  /-- The processor that the file is for. -/
  machine : Nat
  /-- Where execution starts. -/
  entry : Nat
  /-- Where the program headers stand in the file, and how many there are. -/
  programTable : Nat
  programCount : Nat
  /-- Where the section headers stand in the file, and how many there are. -/
  sectionTable : Nat
  sectionCount : Nat
  /-- Which section holds the names of the sections. -/
  nameIndex : Nat
deriving DecidableEq

namespace Header

/-- Reads the fields in a given byte order. -/
def read (order : Bytes.Order) (file : ByteArray) : Header where
  order
  fileType := field order file 16 2
  machine := field order file 18 2
  entry := field order file 24 8
  programTable := field order file 32 8
  programCount := field order file 56 2
  sectionTable := field order file 40 8
  sectionCount := field order file 60 2
  nameIndex := field order file 62 2

/-- The header of a file that is large enough for one and announces a byte order. -/
def read? (file : ByteArray) : Option Header :=
  if headerSize ≤ file.size then (byteOrder? file).map fun order => read order file else none

/-- Whether the table of program headers lies inside a file of the given size. An empty table may
stand anywhere. -/
def programTableInside (header : Header) (size : Nat) : Bool :=
  header.programCount == 0
    || (header.programCount ≤ size / programHeaderSize
      && header.programTable + programHeaderSize * header.programCount ≤ size)

/-- Executables for this machine. -/
def isSupported (header : Header) : Bool :=
  header.fileType == 2 && header.machine == 243

end Header

end Hart.Elf
