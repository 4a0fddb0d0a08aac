/-
This file proves that an executable file that was written is read as it was meant. Reading finds the
section of code by its name, wherever it stands among the others and whatever they contain, and
returns its address and its contents byte for byte; it complains if no section has that name or if
several have. Both byte orders come to the same.
-/

import Hart.Proofs.Writer

namespace Hart.Elf

open Bytes (Order Stands stands_append_iff)

variable {order : Order} {entry : UInt64} {sections : List Section}

/-! ### The file header -/

/-- The header that a written file is meant to have. -/
def writtenHeader (order : Order) (entry : UInt64) (sections : List Section) : Header where
  order
  fileType := 2
  machine := 243
  entry := entry.toNat
  programTable := 0
  programCount := 0
  sectionTable := tableOffset sections
  sectionCount := sections.length + 2
  nameIndex := sections.length + 1

theorem byteOrder?_of_byteAt {file : ByteArray}
    (announced : Bytes.byteAt file 5 = orderByte order) : byteOrder? file = some order := by
  unfold byteOrder?
  rw [announced]
  cases order with
  | little => rfl
  | big => rfl

/-- The magic bytes, the class and all fields of the file header read back. -/
theorem header_of_stands {file : ByteArray} (few : sections.length ≤ 65533)
    (placed : tableOffset sections < 256 ^ 8)
    (stands : Stands file 0 (fileHeader order entry sections)) :
    hasMagic file = true ∧ isClass64 file = true ∧
      Header.read? file = some (writtenHeader order entry sections) := by
  have inside := stands.1
  rw [length_fileHeader, Nat.zero_add] at inside
  unfold fileHeader at stands
  simp only [stands_append_iff, List.length_append, Order.length_bytes, List.length_replicate,
    List.length_cons, List.length_nil, magic, Nat.zero_add, Nat.reduceAdd] at stands
  obtain ⟨⟨⟨⟨⟨⟨⟨⟨⟨⟨⟨⟨⟨⟨⟨⟨⟨magical, wide⟩, ordered⟩, -⟩, -⟩, fileType⟩, machine⟩, -⟩, entries⟩,
    programTable⟩, sectionTable⟩, -⟩, -⟩, -⟩, programCount⟩, -⟩, sectionCount⟩, nameIndex⟩ := stands
  have large : headerSize ≤ file.size := inside
  refine ⟨?_, ?_, ?_⟩
  · refine Bool.and_eq_true_iff.mpr ⟨decide_eq_true (Nat.le_trans (by decide) large), ?_⟩
    exact beq_iff_eq.mpr magical.2
  · refine Bool.and_eq_true_iff.mpr ⟨decide_eq_true (Nat.lt_of_lt_of_le (by decide) large), ?_⟩
    exact beq_iff_eq.mpr wide.byteAt_eq
  · have count : sections.length + 2 < 256 ^ 2 :=
      Nat.lt_of_le_of_lt (by omega) (by decide : 65535 < 256 ^ 2)
    have index : sections.length + 1 < 256 ^ 2 := Nat.lt_of_succ_lt count
    rw [Header.read?, if_pos large, byteOrder?_of_byteAt ordered.byteAt_eq]
    refine congrArg some ?_
    show Header.read order file = _
    rw [Header.read, field_of_stands fileType (by decide), field_of_stands machine (by decide),
      field_of_stands entries (by have := entry.toNat_lt; exact this),
      field_of_stands programTable (by decide), field_of_stands programCount (by decide),
      field_of_stands sectionTable placed, field_of_stands sectionCount count,
      field_of_stands nameIndex index]
    rfl

/-! ### The section headers -/

theorem nameText_cons (item : Section) (rest : List Section) :
    (nameText (item :: rest)).toUTF8.data.toList =
      item.name.toUTF8.data.toList ++ [0] ++ (nameText rest).toUTF8.data.toList := by
  show (item.name ++ "\x00" ++ nameText rest).toByteArray.data.toList = _
  rw [String.toByteArray_append, String.toByteArray_append, ByteArray.toList_data_append,
    ByteArray.toList_data_append]
  rfl

theorem utf8ByteSize_nameText_cons (item : Section) (rest : List Section) :
    (nameText (item :: rest)).utf8ByteSize =
      item.name.utf8ByteSize + 1 + (nameText rest).utf8ByteSize := by
  show (item.name ++ "\x00" ++ nameText rest).utf8ByteSize = _
  rw [String.utf8ByteSize_append, String.utf8ByteSize_append]
  rfl

theorem length_contentsBytes_cons (item : Section) (rest : List Section) :
    (contentsBytes (item :: rest)).length = item.contents.size + (contentsBytes rest).length :=
  List.length_append

/-- The kinds of written sections are none of those that are looked at more closely. -/
def SectionHeader.IsPlain (header : SectionHeader) : Prop :=
  header.kind = 0 ∨ header.kind = program ∨ header.kind = stringTable

theorem SectionHeader.fits_of_unlinked {nameOffset kind address offset size : Nat}
    (name : nameOffset < 256 ^ 4) (known : kind < 256 ^ 4) (place : address < 256 ^ 8)
    (start : offset < 256 ^ 8) (room : size < 256 ^ 8) :
    SectionHeader.Fits ⟨nameOffset, kind, address, offset, size, 0, 0⟩ where
  nameOffset := name
  kind := known
  address := place
  offset := start
  size := room
  link := (by decide : 0 < 256 ^ 4)
  entrySize := (by decide : 0 < 256 ^ 8)

/-- Headers have room for their numbers if names and contents end where they do. -/
theorem fits_of_mem_placed {tableSize : Nat} (table : tableSize < 256 ^ 8) :
    ∀ {sections : List Section} {nameOffset offset : Nat},
      nameOffset + (nameText sections).utf8ByteSize < 256 ^ 4 →
      offset + (contentsBytes sections).length < 256 ^ 8 →
      ∀ header ∈ placed tableSize nameOffset offset sections, header.Fits ∧ header.IsPlain := by
  intro sections
  induction sections with
  | nil =>
    intro nameOffset offset names contents header member
    cases List.mem_singleton.mp member
    refine ⟨SectionHeader.fits_of_unlinked ?_ (by decide) (by decide) ?_ table,
      Or.inr (Or.inr rfl)⟩
    · exact Nat.lt_of_le_of_lt (Nat.le_add_right _ _) names
    · exact Nat.lt_of_le_of_lt (Nat.le_add_right _ _) contents
  | cons item rest inductionHypothesis =>
    intro nameOffset offset names contents header member
    rw [utf8ByteSize_nameText_cons] at names
    rw [length_contentsBytes_cons] at contents
    rcases List.mem_cons.mp member with rfl | later
    · refine ⟨SectionHeader.fits_of_unlinked ?_ (by decide) item.address.toNat_lt ?_ ?_,
        Or.inr (Or.inl rfl)⟩
      · exact Nat.lt_of_le_of_lt (Nat.le_add_right _ _) names
      · exact Nat.lt_of_le_of_lt (Nat.le_add_right _ _) contents
      · exact Nat.lt_of_le_of_lt (by omega) contents
    · exact inductionHypothesis (by omega) (by omega) header later

/-- A written table of section headers is found as a whole. -/
theorem sections?_of_stands {file : ByteArray} (few : sections.length ≤ 65533)
    (fits : ∀ header ∈ headers sections, header.Fits)
    (stands : Stands file (tableOffset sections)
      ((headers sections).flatMap (SectionHeader.bytes order))) :
    (writtenHeader order entry sections).sections? file = some (headers sections) := by
  have size : sectionHeaderSize = 64 := rfl
  have size' : headerSize = 64 := rfl
  have inside := stands.1
  rw [length_table, length_headers, size] at inside
  have behind : headerSize ≤ tableOffset sections :=
    Nat.le_trans (Nat.le_trans (Nat.le_add_right _ _) (Nat.le_add_right _ _))
      (le_tableOffset sections)
  have total : (writtenHeader order entry sections).sectionTotal file = sections.length + 2 := by
    unfold Header.sectionTotal writtenHeader
    rfl
  have present : ¬(writtenHeader order entry sections).sectionTable = 0 := by
    show ¬tableOffset sections = 0
    omega
  have first : ¬file.size < (writtenHeader order entry sections).sectionTable +
      sectionHeaderSize := by
    show ¬file.size < tableOffset sections + sectionHeaderSize
    omega
  have all : sections.length + 2 ≤ file.size / sectionHeaderSize ∧
      (writtenHeader order entry sections).sectionTable +
        sectionHeaderSize * max (sections.length + 2) 1 ≤ file.size := by
    show _ ∧ tableOffset sections + _ ≤ file.size
    rw [Nat.max_eq_left (by omega), size]
    exact ⟨by omega, by omega⟩
  unfold Header.sections?
  dsimp only
  rw [if_neg present, if_neg first, total, if_pos all, Nat.max_eq_left (by omega),
    ← length_headers]
  exact congrArg some (map_read_of_stands fits stands)

/-! ### The name table -/

theorem getElem?_placed (tableSize : Nat) :
    ∀ (sections : List Section) (nameOffset offset : Nat), ∃ last,
      (placed tableSize nameOffset offset sections)[sections.length]? =
        some ⟨last, SectionHeader.stringTable, 0, offset + (contentsBytes sections).length,
          tableSize, 0, 0⟩
  | [], nameOffset, offset => ⟨nameOffset, rfl⟩
  | item :: rest, nameOffset, offset => by
    obtain ⟨last, found⟩ := getElem?_placed tableSize rest
      (nameOffset + item.name.utf8ByteSize + 1) (offset + item.contents.size)
    refine ⟨last, ?_⟩
    rw [length_contentsBytes_cons, ← Nat.add_assoc]
    exact found

/-- The name table is found where the last section header says. -/
theorem nameTable?_of_stands {file : ByteArray} (few : sections.length ≤ 65533)
    (room : (nameTable sections).size < SectionHeader.addressSpace)
    (stands : Stands file (namesOffset sections) (nameTable sections).data.toList) :
    nameTable? file (headers sections) (sections.length + 1) = some (nameTable sections) := by
  obtain ⟨last, found⟩ :=
    getElem?_placed (nameTable sections).size sections 1 headerSize
  have member : (headers sections)[sections.length + 1]? = some
      ⟨last, SectionHeader.stringTable, 0, namesOffset sections, (nameTable sections).size, 0, 0⟩ :=
    found
  have inside : namesOffset sections + (nameTable sections).size ≤ file.size := stands.1
  have plain : ¬sections.length + 1 = extendedIndex := by
    show ¬sections.length + 1 = 65535
    omega
  have contents : SectionHeader.contents ⟨last, SectionHeader.stringTable, 0,
      namesOffset sections, (nameTable sections).size, 0, 0⟩ file = nameTable sections :=
    Bytes.extract_of_stands stands
  have valid : (nameTable sections).validateUTF8 = true :=
    ByteArray.validateUTF8_eq_true_iff.mpr ("\x00" ++ nameText sections).isValidUTF8
  have isPlaced : SectionHeader.isPlaced ⟨last, SectionHeader.stringTable, 0,
      namesOffset sections, (nameTable sections).size, 0, 0⟩ file.size = true := by
    refine Bool.or_eq_true_iff.mpr (Or.inr (Bool.and_eq_true_iff.mpr ⟨decide_eq_true inside, ?_⟩))
    refine decide_eq_true ?_
    rw [Nat.zero_add]
    exact room
  unfold nameTable?
  dsimp only
  rw [if_neg plain, member]
  refine (if_pos ⟨isPlaced, inside, ?_⟩).trans (congrArg some contents)
  rw [contents]
  exact valid

/-- Written sections need no further checks. -/
theorem plain_of_headers (file : ByteArray) {table : List SectionHeader}
    (plain : ∀ header ∈ table, header.IsPlain) :
    symbolsUsable file table = true ∧ relocationsPlaced file.size table = true := by
  constructor
  · have none : table.filter (·.kind == SectionHeader.symbolTable) = [] := by
      refine List.filter_eq_nil_iff.mpr fun header member symbols => ?_
      have kind : header.kind = 2 := beq_iff_eq.mp symbols
      rcases plain header member with other | other | other <;>
        cases kind.symm.trans other
    unfold symbolsUsable
    rw [none]
    rfl
  · refine List.all_eq_true.mpr fun header member => ?_
    rw [if_neg]
    intro relocates
    rcases Bool.or_eq_true_iff.mp relocates with kind | kind <;>
      rcases plain header member with other | other | other <;>
        cases (beq_iff_eq.mp kind).symm.trans other

/-! ### The section of code -/

/-- Whether a header describes a section in a file. -/
structure SectionHeader.Describes (header : SectionHeader) (file : ByteArray) (item : Section) :
    Prop where
  kind : header.kind = program
  address : header.address = item.address.toNat
  inside : header.fileEnd ≤ file.size
  contents : header.contents file = item.contents

/-- Whether a name table gives a header the name of the section that holds the code. -/
def NameTable.namesText (table : NameTable) (header : SectionHeader) : Bool :=
  table.name? header.nameOffset = some textName

theorem namesText_eq {table : NameTable} (header : SectionHeader) {name : String}
    (nulFree : '\x00' ∉ name.toList)
    (stands : Stands table header.nameOffset (name.toUTF8.data.toList ++ [0])) :
    table.namesText header = decide (name = ".text") := by
  unfold NameTable.namesText
  rw [name?_of_stands nulFree stands]
  refine decide_eq_decide.mpr ⟨fun same => ?_, fun same => same ▸ rfl⟩
  have bytes : name.toByteArray.data.toList = ".text".toByteArray.data.toList :=
    Option.some.inj same
  exact String.toByteArray_inj.mp (ByteArray.ext (Array.toList_inj.mp bytes))

/-- The headers that bear the name describe the sections that have it, in order. -/
theorem filter_placed {table : NameTable} {file : ByteArray} (tableSize : Nat) :
    ∀ {sections : List Section} {nameOffset offset : Nat},
      Stands table nameOffset (nameText sections).toUTF8.data.toList →
      Stands file offset (contentsBytes sections) →
      List.Forall₂ (fun header item => header.Describes file item)
        ((placed tableSize nameOffset offset sections).filter table.namesText)
        (sections.filter fun item => item.name = ".text") := by
  intro sections
  induction sections with
  | nil =>
    intro nameOffset offset names contents
    have nulFree : '\x00' ∉ ".shstrtab".toList := by decide
    have other : table.namesText
        ⟨nameOffset, SectionHeader.stringTable, 0, offset, tableSize, 0, 0⟩ = false :=
      namesText_eq _ nulFree names
    rw [placed, List.filter_cons_of_neg (by rw [other]; decide)]
    exact .nil
  | cons item rest inductionHypothesis =>
    intro nameOffset offset names contents
    rw [nameText_cons] at names
    obtain ⟨first, names⟩ := stands_append_iff.mp names
    obtain ⟨code, contents⟩ := stands_append_iff.mp contents
    have describes : SectionHeader.Describes ⟨nameOffset, SectionHeader.program,
        item.address.toNat, offset, item.contents.size, 0, 0⟩ file item :=
      ⟨rfl, rfl, code.1, Bytes.extract_of_stands code⟩
    have name : table.namesText ⟨nameOffset, SectionHeader.program, item.address.toNat, offset,
        item.contents.size, 0, 0⟩ = decide (item.name = ".text") :=
      namesText_eq _ item.nulFree first
    have width : (item.name.toUTF8.data.toList ++ [0]).length = item.name.utf8ByteSize + 1 := by
      rw [List.length_append, String.toUTF8_eq_toByteArray]
      rfl
    rw [width, ← Nat.add_assoc] at names
    have others := inductionHypothesis names contents
    unfold placed
    rw [List.filter_cons, List.filter_cons, name]
    by_cases text : item.name = ".text"
    · rw [decide_eq_true text, if_pos rfl, if_pos rfl]
      exact .cons describes others
    · rw [decide_eq_false text, if_neg Bool.false_ne_true, if_neg Bool.false_ne_true]
      exact others

/-! ### The whole file -/

theorem size_nameTable (sections : List Section) :
    (nameTable sections).size = 1 + (nameText sections).utf8ByteSize := by
  show ("\x00" ++ nameText sections).toByteArray.size = _
  rw [String.toByteArray_append, ByteArray.size_append]
  rfl

theorem stands_nameTable (sections : List Section) :
    Stands (nameTable sections) 0 ("".toUTF8.data.toList ++ [0]) ∧
      Stands (nameTable sections) 1 (nameText sections).toUTF8.data.toList := by
  have whole := Bytes.stands_self (nameTable sections)
  have bytes : (nameTable sections).data.toList =
      "".toUTF8.data.toList ++ [0] ++ (nameText sections).toUTF8.data.toList := by
    show ("\x00" ++ nameText sections).toByteArray.data.toList = _
    rw [String.toByteArray_append, ByteArray.toList_data_append]
    rfl
  rw [bytes] at whole
  exact stands_append_iff.mp whole

theorem tableOffset_lt (small : (write order entry sections).size < 2 ^ 63) :
    tableOffset sections < 256 ^ 8 := by
  obtain ⟨-, -, -, entries⟩ := stands_write order entry sections
  refine Nat.lt_of_le_of_lt (Nat.le_add_right _ _) (Nat.lt_of_le_of_lt entries.1 ?_)
  exact Nat.lt_trans small (by decide)

/-- The tables of a written file are those that were put into it. -/
theorem read?_write (few : sections.length ≤ 65533) (names : (nameTable sections).size < 2 ^ 32)
    (small : (write order entry sections).size < 2 ^ 63) :
    File.read? (write order entry sections) =
      some ⟨writtenHeader order entry sections, headers sections, nameTable sections⟩ := by
  obtain ⟨header, contents, table, entries⟩ := stands_write order entry sections
  have room : (nameTable sections).size < SectionHeader.addressSpace :=
    Nat.lt_trans names (by decide)
  have properties : ∀ entry ∈ headers sections, entry.Fits ∧ entry.IsPlain := by
    intro entry member
    rcases List.mem_cons.mp member with rfl | member
    · exact ⟨SectionHeader.fits_of_unlinked (by decide) (by decide) (by decide) (by decide)
        (by decide), Or.inl rfl⟩
    · refine fits_of_mem_placed (Nat.lt_trans names (by decide)) ?_ ?_ entry member
      · rw [← size_nameTable]
        exact Nat.lt_of_lt_of_le names (by decide)
      · exact Nat.lt_of_le_of_lt contents.1 (Nat.lt_trans small (by decide))
  have read := (header_of_stands few (tableOffset_lt small) header).2.2
  have found : (writtenHeader order entry sections).sections? (write order entry sections) =
      some (headers sections) :=
    sections?_of_stands few (fun entry member => (properties entry member).1) entries
  obtain ⟨symbols, relocations⟩ := plain_of_headers (write order entry sections)
    fun entry member => (properties entry member).2
  have inside : (writtenHeader order entry sections).programTableInside
      (write order entry sections).size = true := rfl
  have named : nameTable? (write order entry sections) (headers sections)
      (writtenHeader order entry sections).nameIndex = some (nameTable sections) :=
    nameTable?_of_stands few room table
  unfold File.read?
  rw [read]
  dsimp only
  rw [if_pos inside, found]
  dsimp only
  rw [named]
  dsimp only
  rw [symbols, relocations]
  rfl

theorem image_of_describes {file : ByteArray} {header : SectionHeader} {item : Section}
    (describes : header.Describes file item) :
    header.image (writtenHeader order entry sections) file =
      .ok ⟨entry, item.address, item.contents⟩ := by
  have loaded : ¬header.kind = SectionHeader.noContents := by
    rw [describes.kind]
    decide
  unfold SectionHeader.image
  rw [if_neg loaded, if_neg (Nat.not_lt.mpr describes.inside), describes.address,
    describes.contents]
  show Except.ok (Image.mk (UInt64.ofNat entry.toNat) _ _) = _
  rw [UInt64.ofNat_toNat, UInt64.ofNat_toNat]

/-- The sections that bear the name of the section of code are found in the order in which they
were written, and nothing else is taken for one. -/
theorem texts_write (order : Order) (entry : UInt64) (sections : List Section) :
    List.Forall₂ (fun header item => header.Describes (write order entry sections) item)
      (File.texts ⟨writtenHeader order entry sections, headers sections, nameTable sections⟩)
      (sections.filter fun item => item.name = ".text") := by
  obtain ⟨-, contents, -, -⟩ := stands_write order entry sections
  obtain ⟨empty, rest⟩ := stands_nameTable sections
  have unnamed : (nameTable sections).namesText .null = false :=
    namesText_eq .null (by decide : '\x00' ∉ "".toList) empty
  show List.Forall₂ _ (List.filter (nameTable sections).namesText (.null :: placed _ _ _ _)) _
  rw [List.filter_cons_of_neg (by rw [unnamed]; decide)]
  exact filter_placed _ rest contents

/-- A file that was written with any sections, in either byte order, is read as it was meant. If
exactly one section is named `.text`, the image has the entry of the file, the address of that
section, and its contents byte for byte; without such a section it is reported as missing, and with
several the file is refused. -/
theorem ofElf_write (order : Order) (entry : UInt64) (sections : List Section)
    (few : sections.length ≤ 65533) (names : (nameTable sections).size < 2 ^ 32)
    (small : (write order entry sections).size < 2 ^ 63) :
    Image.ofElf (write order entry sections) =
        (match sections.filter fun item => item.name = ".text" with
        | [] => .error .missingText
        | [item] => .ok ⟨entry, item.address, item.contents⟩
        | _ => .error .severalTexts) ∧
      LoadError.severalTexts.message = "invalid ELF64 image: more than one .text section" := by
  refine ⟨?_, rfl⟩
  obtain ⟨header, -⟩ := stands_write order entry sections
  have offset := tableOffset_lt small
  obtain ⟨magical, wide, -⟩ := header_of_stands few offset header
  have texts := texts_write order entry sections
  unfold Image.ofElf
  rw [if_pos magical, if_pos wide, read?_write few names small]
  dsimp only
  unfold File.image
  dsimp only
  have supported : (writtenHeader order entry sections).isSupported = true := rfl
  rw [if_pos supported]
  revert texts
  generalize File.texts ⟨writtenHeader order entry sections, headers sections, nameTable sections⟩ =
    found
  generalize (sections.filter fun item => item.name = ".text") = meant
  intro texts
  cases texts with
  | nil => rfl
  | cons describes others =>
    cases others with
    | nil => exact image_of_describes describes
    | cons _ _ => rfl

/-- The section of code stands between a section whose contents spell its name and one without name
and contents, and it belongs at the very end of the address space. -/
theorem ofElf_write_between :
    let sections : List Section :=
      [{ name := ".text.init", address := 0, contents := ".text".toUTF8 },
        { name := ".text", address := 0xfffffffffffffff0, contents := ⟨#[0x13, 0, 0, 0]⟩ },
        { name := "", address := 7, contents := .empty }]
    sections.length ≤ 65533 ∧ (nameTable sections).size < 2 ^ 32 ∧
      (write .big 0x1000 sections).size < 2 ^ 63 ∧
      Image.ofElf (write .big 0x1000 sections) =
        .ok ⟨0x1000, 0xfffffffffffffff0, ⟨#[0x13, 0, 0, 0]⟩⟩ := by
  intro sections
  have few : sections.length ≤ 65533 := by decide
  have names : (nameTable sections).size < 2 ^ 32 := by decide +kernel
  have small : (write .big 0x1000 sections).size < 2 ^ 63 := by
    rw [size_write]
    decide +kernel
  exact ⟨few, names, small, (ofElf_write .big 0x1000 sections few names small).1⟩

end Hart.Elf
