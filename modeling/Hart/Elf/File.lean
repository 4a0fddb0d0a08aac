/-
This file decides which files are well-formed enough to be searched for code. Tables that are not
needed for that are checked nonetheless: a file with a symbol table or relocations that lead outside
it is refused as a whole. Nothing is asked of the contents of program headers.
-/

import Hart.Elf.NameTable

namespace Hart.Elf

/-- A file whose tables can be relied on. -/
structure File where
  header : Header
  sections : List SectionHeader
  /-- The names of the sections. -/
  names : NameTable

/-- The size of a symbol. -/
def symbolSize : Nat := 24

/-- How many symbols a symbol table announces. -/
def SectionHeader.symbolCount (entry : SectionHeader) : Nat :=
  entry.size / entry.entrySize

/-- Whether the last symbol table lies inside the file and has usable names. Earlier ones are not
looked at. -/
def symbolsUsable (file : ByteArray) (sections : List SectionHeader) : Bool :=
  match (sections.filter (·.kind == SectionHeader.symbolTable)).getLast? with
  | none => true
  | some entry =>
    entry.offset < file.size && entry.offset + symbolSize * entry.symbolCount ≤ file.size
      && (nameTable? file sections entry.link).isSome

/-- Whether every table of relocations is placed properly. -/
def relocationsPlaced (size : Nat) (sections : List SectionHeader) : Bool :=
  sections.all fun entry =>
    if entry.kind == SectionHeader.relocations
        || entry.kind == SectionHeader.relocationsWithAddends then entry.isPlaced size
    else true

/-- The tables of a file, if they can be relied on. -/
def File.read? (file : ByteArray) : Option File :=
  match Header.read? file with
  | none => none
  | some header =>
    if header.programTableInside file.size then
      match header.sections? file with
      | none => none
      | some sections =>
        match nameTable? file sections header.nameIndex with
        | none => none
        | some names =>
          if symbolsUsable file sections && relocationsPlaced file.size sections then
            some ⟨header, sections, names⟩
          else none
    else none

/-- The sections that hold code, by name. Headers of every kind count, the first one included. -/
def File.texts (file : File) : List SectionHeader :=
  file.sections.filter fun entry => file.names.name? entry.nameOffset = some textName

end Hart.Elf
