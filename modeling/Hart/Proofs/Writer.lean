/-
This file writes executable files: a file header, the contents of the sections, the table of their
names, and the table of section headers. All numbers stand in one byte order, which the file header
announces. The layout is the simplest one that an executable file can have, with one section behind
the other and no program headers.

A file that was written this way is laid out as intended: each part stands where the headers say,
and each header reads back as the one that was written, provided that its numbers have room.
-/

import Hart.Elf.Load
import Hart.Proofs.Placement

namespace Hart.Elf

open Bytes (Order Stands stands_append_iff)

/-- A section to be written: its name, where it belongs in memory and what it contains. -/
structure Section where
  name : String
  address : UInt64
  contents : ByteArray
  /-- A zero byte ends a name, so there is none within. -/
  nulFree : '\x00' ∉ name.toList := by decide

/-! ### The parts of a file -/

/-- The names of the sections, each with a zero byte behind it, the one of the name table last. -/
def nameText : List Section → String
  | [] => ".shstrtab" ++ "\x00"
  | item :: rest => item.name ++ "\x00" ++ nameText rest

/-- The name table. It starts with a zero byte, so that there is an empty name. -/
def nameTable (sections : List Section) : NameTable :=
  ("\x00" ++ nameText sections).toUTF8

/-- The contents of the sections, one behind the other. -/
def contentsBytes (sections : List Section) : List UInt8 :=
  sections.flatMap fun item => item.contents.data.toList

/-- Where the name table stands. -/
def namesOffset (sections : List Section) : Nat :=
  headerSize + (contentsBytes sections).length

/-- The next multiple of eight. -/
def aligned (position : Nat) : Nat :=
  (position + 7) / 8 * 8

/-- Where the section headers stand. -/
def tableOffset (sections : List Section) : Nat :=
  aligned (namesOffset sections + (nameTable sections).size)

namespace SectionHeader

/-- The kinds of the sections that are written. -/
def program : Nat := 1
def stringTable : Nat := 3

/-- The header that every table starts with. -/
def null : SectionHeader :=
  ⟨0, 0, 0, 0, 0, 0, 0⟩

/-- Sections of a program take up memory and may be executed. -/
def flags (entry : SectionHeader) : Nat :=
  if entry.kind = program then 6 else 0

def alignment (entry : SectionHeader) : Nat :=
  if entry.kind = program then 4 else if entry.kind = stringTable then 1 else 0

/-- The bytes of a section header. -/
def bytes (order : Order) (entry : SectionHeader) : List UInt8 :=
  order.bytes 4 entry.nameOffset ++ order.bytes 4 entry.kind ++ order.bytes 8 entry.flags ++
    order.bytes 8 entry.address ++ order.bytes 8 entry.offset ++ order.bytes 8 entry.size ++
    order.bytes 4 entry.link ++ order.bytes 4 0 ++ order.bytes 8 entry.alignment ++
    order.bytes 8 entry.entrySize

end SectionHeader

/-- The headers of sections whose names and contents stand from the given positions on, and the
header of the name table, which comes after all of them. -/
def placed (tableSize nameOffset offset : Nat) : List Section → List SectionHeader
  | [] => [⟨nameOffset, SectionHeader.stringTable, 0, offset, tableSize, 0, 0⟩]
  | item :: rest =>
    ⟨nameOffset, SectionHeader.program, item.address.toNat, offset, item.contents.size, 0, 0⟩ ::
      placed tableSize (nameOffset + item.name.utf8ByteSize + 1) (offset + item.contents.size) rest

/-- All section headers. -/
def headers (sections : List Section) : List SectionHeader :=
  .null :: placed (nameTable sections).size 1 headerSize sections

/-- The byte that announces a byte order. -/
def orderByte : Order → UInt8
  | .little => 1
  | .big => 2

/-- The file header of an executable for this machine. -/
def fileHeader (order : Order) (entry : UInt64) (sections : List Section) : List UInt8 :=
  magic ++ [2] ++ [orderByte order] ++ [1, 0] ++ List.replicate 8 0 ++
    order.bytes 2 2 ++ order.bytes 2 243 ++ order.bytes 4 1 ++
    order.bytes 8 entry.toNat ++ order.bytes 8 0 ++ order.bytes 8 (tableOffset sections) ++
    order.bytes 4 0 ++ order.bytes 2 headerSize ++ order.bytes 2 programHeaderSize ++
    order.bytes 2 0 ++ order.bytes 2 sectionHeaderSize ++
    order.bytes 2 (sections.length + 2) ++ order.bytes 2 (sections.length + 1)

/-- The file with the given sections that starts execution at the given address. -/
def write (order : Order) (entry : UInt64) (sections : List Section) : ByteArray :=
  (fileHeader order entry sections ++ contentsBytes sections ++
    (nameTable sections).data.toList ++
    List.replicate (tableOffset sections - (namesOffset sections + (nameTable sections).size)) 0 ++
    (headers sections).flatMap (SectionHeader.bytes order)).toByteArray

/-! ### Where the parts stand -/

variable (order : Order) (entry : UInt64) (sections : List Section)

theorem length_fileHeader : (fileHeader order entry sections).length = headerSize := by
  simp only [fileHeader, magic, List.length_append, List.length_cons, List.length_nil,
    List.length_replicate, Order.length_bytes]
  rfl

@[simp] theorem SectionHeader.length_bytes (header : SectionHeader) :
    (header.bytes order).length = sectionHeaderSize := by
  simp only [SectionHeader.bytes, List.length_append, Order.length_bytes]
  rfl

theorem length_placed (tableSize : Nat) : ∀ (nameOffset offset : Nat) (sections : List Section),
    (placed tableSize nameOffset offset sections).length = sections.length + 1
  | _, _, [] => rfl
  | _, _, _ :: rest => congrArg Nat.succ (length_placed tableSize _ _ rest)

theorem length_headers (sections : List Section) :
    (headers sections).length = sections.length + 2 :=
  congrArg Nat.succ (length_placed _ _ _ sections)

theorem length_table (order : Order) (table : List SectionHeader) :
    (table.flatMap (SectionHeader.bytes order)).length = sectionHeaderSize * table.length := by
  induction table with
  | nil => rfl
  | cons header table inductionHypothesis =>
    rw [List.flatMap_cons, List.length_append, SectionHeader.length_bytes, inductionHypothesis,
      List.length_cons, Nat.mul_succ, Nat.add_comm]

theorem le_tableOffset :
    namesOffset sections + (nameTable sections).size ≤ tableOffset sections := by
  unfold tableOffset aligned
  omega

/-- Each part of a written file stands where it is announced. -/
theorem stands_write :
    Stands (write order entry sections) 0 (fileHeader order entry sections) ∧
      Stands (write order entry sections) headerSize (contentsBytes sections) ∧
      Stands (write order entry sections) (namesOffset sections)
        (nameTable sections).data.toList ∧
      Stands (write order entry sections) (tableOffset sections)
        ((headers sections).flatMap (SectionHeader.bytes order)) := by
  have whole := Bytes.stands_toByteArray (fileHeader order entry sections ++
    contentsBytes sections ++ (nameTable sections).data.toList ++
    List.replicate (tableOffset sections - (namesOffset sections + (nameTable sections).size)) 0 ++
    (headers sections).flatMap (SectionHeader.bytes order))
  obtain ⟨whole, table⟩ := stands_append_iff.mp whole
  obtain ⟨whole, -⟩ := stands_append_iff.mp whole
  obtain ⟨whole, names⟩ := stands_append_iff.mp whole
  obtain ⟨header, contents⟩ := stands_append_iff.mp whole
  have size : (nameTable sections).data.toList.length = (nameTable sections).size := rfl
  have padded := le_tableOffset sections
  have lengths : headerSize + (contentsBytes sections).length = namesOffset sections := rfl
  refine ⟨header, ?_, ?_, ?_⟩
  · rw [length_fileHeader, Nat.zero_add] at contents
    exact contents
  · rw [List.length_append, length_fileHeader, Nat.zero_add] at names
    exact names
  · rw [List.length_append, List.length_append, List.length_append, length_fileHeader,
      List.length_replicate, size, lengths, Nat.zero_add, Nat.add_sub_cancel' padded] at table
    exact table

/-- A written file ends with its section headers. -/
theorem size_write :
    (write order entry sections).size =
      tableOffset sections + sectionHeaderSize * (sections.length + 2) := by
  have padded := le_tableOffset sections
  have size : (nameTable sections).data.toList.length = (nameTable sections).size := rfl
  have lengths : headerSize + (contentsBytes sections).length = namesOffset sections := rfl
  unfold write
  rw [List.size_toByteArray, List.length_append, List.length_append, List.length_append,
    List.length_append, List.length_replicate, length_fileHeader, lengths, size,
    Nat.add_sub_cancel' padded, length_table, length_headers]

/-! ### Reading headers back -/

/-- Whether the numbers of a section header have room in their fields. -/
structure SectionHeader.Fits (header : SectionHeader) : Prop where
  nameOffset : header.nameOffset < 256 ^ 4
  kind : header.kind < 256 ^ 4
  address : header.address < 256 ^ 8
  offset : header.offset < 256 ^ 8
  size : header.size < 256 ^ 8
  link : header.link < 256 ^ 4
  entrySize : header.entrySize < 256 ^ 8

variable {order} {file : ByteArray} {start : Nat}

theorem SectionHeader.read_of_stands {header : SectionHeader} (fits : header.Fits)
    (stands : Stands file start (header.bytes order)) :
    SectionHeader.read order file start = header := by
  unfold SectionHeader.bytes at stands
  simp only [stands_append_iff, List.length_append, Order.length_bytes] at stands
  obtain ⟨⟨⟨⟨⟨⟨⟨⟨⟨nameOffset, kind⟩, -⟩, address⟩, offset⟩, size⟩, link⟩, -⟩, -⟩, entrySize⟩ :=
    stands
  unfold SectionHeader.read
  rw [field_of_stands nameOffset fits.nameOffset, field_of_stands kind fits.kind,
    field_of_stands address fits.address, field_of_stands offset fits.offset,
    field_of_stands size fits.size, field_of_stands link fits.link,
    field_of_stands entrySize fits.entrySize]

/-- A table of section headers reads back header by header. -/
theorem map_read_of_stands {table : List SectionHeader} (fits : ∀ header ∈ table, header.Fits) :
    ∀ {start : Nat}, Stands file start (table.flatMap (SectionHeader.bytes order)) →
      (List.range table.length).map (fun index =>
        SectionHeader.read order file (start + sectionHeaderSize * index)) = table := by
  induction table with
  | nil => exact fun _ => rfl
  | cons header table inductionHypothesis =>
    intro start stands
    obtain ⟨first, rest⟩ := stands_append_iff.mp stands
    rw [SectionHeader.length_bytes] at rest
    have others := inductionHypothesis
      (fun header member => fits header (List.mem_cons_of_mem _ member)) rest
    rw [List.length_cons, List.range_succ_eq_map, List.map_cons, List.map_map, Nat.mul_zero,
      Nat.add_zero, SectionHeader.read_of_stands (fits header List.mem_cons_self) first]
    refine congrArg (List.cons header) (Eq.trans (List.map_congr_left fun index _ => ?_) others)
    show SectionHeader.read order file (start + sectionHeaderSize * (index + 1)) = _
    rw [Nat.mul_succ, Nat.add_comm (sectionHeaderSize * index), Nat.add_assoc]

end Hart.Elf
