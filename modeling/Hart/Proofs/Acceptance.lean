/-
This file states on the bytes of a file when its tables can be relied on, and proves that reading
them decides just that. The rules speak of one section header at a time, by its index, and say what
has to lie where. The order in which they are checked does not show in them, and neither do checks
that follow from others: a table that ends inside the file has no more entries than the file has
room for.
-/

import Hart.Elf.File
import Hart.Proofs.Placement

namespace Hart.Elf

/-! ### What stands in a file -/

section

variable (file : ByteArray) (index : Nat)

/-- The byte order of the numbers in a file that announces one. -/
def announcedOrder : Bytes.Order :=
  if Bytes.byteAt file 5 = 2 then .big else .little

/-- The number that some bytes of a file write in its own order, each byte with the weight of its
place. -/
def numberAt (start width : Nat) : Nat :=
  match announcedOrder file with
  | .little =>
    ∑ place ∈ Finset.range width, (Bytes.byteAt file (start + place)).toNat * 256 ^ place
  | .big =>
    ∑ place ∈ Finset.range width,
      (Bytes.byteAt file (start + (width - 1 - place))).toNat * 256 ^ place

/-- The fields of the file header. -/
def headerOf : Header where
  order := announcedOrder file
  fileType := numberAt file 16 2
  machine := numberAt file 18 2
  entry := numberAt file 24 8
  programTable := numberAt file 32 8
  programCount := numberAt file 56 2
  sectionTable := numberAt file 40 8
  sectionCount := numberAt file 60 2
  nameIndex := numberAt file 62 2

/-- The fields of the section header with an index. -/
def entryAt : SectionHeader :=
  let start := (headerOf file).sectionTable + 64 * index
  { nameOffset := numberAt file start 4
    kind := numberAt file (start + 4) 4
    address := numberAt file (start + 16) 8
    offset := numberAt file (start + 24) 8
    size := numberAt file (start + 32) 8
    link := numberAt file (start + 40) 4
    entrySize := numberAt file (start + 56) 8 }

/-- How many section headers there are. A count that is too large for the file header stands in the
first of them, and a table that says it has none has that one all the same. -/
def entryCount : Nat :=
  if (headerOf file).sectionTable = 0 then 0
  else max (if (headerOf file).sectionCount = 0 then (entryAt file 0).size
    else (headerOf file).sectionCount) 1

/-- The section headers in order. -/
def entries : List SectionHeader :=
  (List.range (entryCount file)).map (entryAt file)

/-- The index of a string table. The greatest one that its field can hold stands for another, which
stands in the first section header. -/
def textIndex : Nat :=
  if index = 0xffff then (entryAt file 0).link else index

/-- The string table with an index, which is empty if there is no such section. -/
def textAt : NameTable :=
  if textIndex file index < entryCount file then
    (entryAt file (textIndex file index)).contents file
  else .empty

/-- The names of the sections. -/
def sectionNames : NameTable :=
  textAt file (headerOf file).nameIndex

end

/-! ### The rules -/

/-- Whether the contents of a section, if it has any, lie inside the file and inside the address
space. -/
def Placed (file : ByteArray) (entry : SectionHeader) : Prop :=
  entry.kind ≠ 8 → entry.size ≠ 0 →
    entry.offset + entry.size ≤ file.size ∧ entry.address + entry.size < 2 ^ 64

/-- Whether a string table, if there is one with that index, is text inside the file. -/
def TextUsable (file : ByteArray) (index : Nat) : Prop :=
  textIndex file index < entryCount file →
    let entry := entryAt file (textIndex file index)
    Placed file entry ∧ entry.offset + entry.size ≤ file.size ∧
      (entry.contents file).IsValidUTF8

/-- Whether a section is a symbol table and none comes after it. -/
def IsLastSymbols (file : ByteArray) (index : Nat) : Prop :=
  index < entryCount file ∧ (entryAt file index).kind = 2 ∧
    ∀ later, index < later → later < entryCount file → (entryAt file later).kind ≠ 2

/-- Whether a symbol table has its symbols inside the file and usable names. -/
def SymbolsUsable (file : ByteArray) (entry : SectionHeader) : Prop :=
  entry.offset < file.size ∧
    entry.offset + 24 * (entry.size / entry.entrySize) ≤ file.size ∧
    TextUsable file entry.link

/-- The rules that the tables of a file have to follow. -/
structure Reliable (file : ByteArray) : Prop where
  header : 64 ≤ file.size
  order : Bytes.byteAt file 5 = 1 ∨ Bytes.byteAt file 5 = 2
  programs : (headerOf file).programCount ≠ 0 →
    (headerOf file).programTable + 56 * (headerOf file).programCount ≤ file.size
  entries : (headerOf file).sectionTable ≠ 0 →
    (headerOf file).sectionTable + 64 * entryCount file ≤ file.size
  names : TextUsable file (headerOf file).nameIndex
  symbols : ∀ index, IsLastSymbols file index → SymbolsUsable file (entryAt file index)
  relocations : ∀ index < entryCount file,
    (entryAt file index).kind = 4 ∨ (entryAt file index).kind = 9 →
      Placed file (entryAt file index)

/-! ### Headers -/

theorem field_eq_numberAt (file : ByteArray) (start width : Nat) :
    field (announcedOrder file) file start width = numberAt file start width := by
  unfold field numberAt
  cases announcedOrder file with
  | little => exact Bytes.littleEndian_slice file start width
  | big => exact Bytes.bigEndian_slice file start width

theorem numberAt_lt (file : ByteArray) (start width : Nat) :
    numberAt file start width < 256 ^ width := by
  rw [← field_eq_numberAt]
  exact field_lt (announcedOrder file) file start width

theorem headerOf_order (file : ByteArray) : (headerOf file).order = announcedOrder file :=
  rfl

theorem read_eq_headerOf (file : ByteArray) :
    Header.read (announcedOrder file) file = headerOf file := by
  simp only [Header.read, field_eq_numberAt]
  rfl

theorem read_eq_entryAt (file : ByteArray) (index : Nat) :
    SectionHeader.read (announcedOrder file) file
      ((headerOf file).sectionTable + 64 * index) = entryAt file index := by
  simp only [SectionHeader.read, field_eq_numberAt]
  rfl

theorem byteOrder?_eq_some_iff {file : ByteArray} {order : Bytes.Order} :
    byteOrder? file = some order ↔
      (Bytes.byteAt file 5 = 1 ∨ Bytes.byteAt file 5 = 2) ∧ order = announcedOrder file := by
  unfold byteOrder? announcedOrder
  generalize Bytes.byteAt file 5 = byte
  by_cases little : byte = 1
  · subst little
    exact ⟨fun found => ⟨.inl rfl, (Option.some.inj found).symm⟩,
      fun found => congrArg some found.2.symm⟩
  · by_cases big : byte = 2
    · subst big
      exact ⟨fun found => ⟨.inr rfl, (Option.some.inj found).symm⟩,
        fun found => congrArg some found.2.symm⟩
    · have one : byte.toNat ≠ 1 := fun equal => little (UInt8.toNat_inj.mp equal)
      have two : byte.toNat ≠ 2 := fun equal => big (UInt8.toNat_inj.mp equal)
      split
      · contradiction
      · contradiction
      · exact ⟨nofun, fun found => absurd found.1 (not_or.mpr ⟨little, big⟩)⟩

theorem header_read?_eq_some_iff {file : ByteArray} {header : Header} :
    Header.read? file = some header ↔
      (64 ≤ file.size ∧ (Bytes.byteAt file 5 = 1 ∨ Bytes.byteAt file 5 = 2)) ∧
        header = headerOf file := by
  unfold Header.read?
  by_cases large : 64 ≤ file.size
  · rw [if_pos (show headerSize ≤ file.size from large), Option.map_eq_some_iff]
    constructor
    · rintro ⟨order, announced, rfl⟩
      obtain ⟨known, rfl⟩ := byteOrder?_eq_some_iff.mp announced
      exact ⟨⟨large, known⟩, read_eq_headerOf file⟩
    · rintro ⟨⟨-, known⟩, rfl⟩
      exact ⟨_, byteOrder?_eq_some_iff.mpr ⟨known, rfl⟩, read_eq_headerOf file⟩
  · rw [if_neg (show ¬headerSize ≤ file.size from large)]
    exact ⟨nofun, fun found => absurd found.1.1 large⟩

/-- A table that ends inside the file has no more entries than the file has room for. -/
theorem programTableInside_iff {header : Header} {size : Nat} :
    header.programTableInside size = true ↔
      (header.programCount ≠ 0 → header.programTable + 56 * header.programCount ≤ size) := by
  have size : programHeaderSize = 56 := rfl
  simp only [Header.programTableInside, Bool.or_eq_true, beq_iff_eq, Bool.and_eq_true,
    decide_eq_true_eq]
  rw [size]
  constructor
  · intro inside some
    exact (inside.resolve_left some).2
  · intro inside
    by_cases none : header.programCount = 0
    · exact .inl none
    · have ends := inside none
      exact .inr ⟨by omega, ends⟩

theorem sections?_eq_some_iff {file : ByteArray} {sections : List SectionHeader} :
    (headerOf file).sections? file = some sections ↔
      ((headerOf file).sectionTable ≠ 0 →
        (headerOf file).sectionTable + 64 * entryCount file ≤ file.size) ∧
      sections = entries file := by
  unfold Header.sections? entries
  by_cases empty : (headerOf file).sectionTable = 0
  · have none : entryCount file = 0 := if_pos empty
    rw [if_pos empty, none]
    exact ⟨fun found => ⟨fun other => absurd empty other, (Option.some.inj found).symm⟩,
      fun found => congrArg some found.2.symm⟩
  · have count : entryCount file = max ((headerOf file).sectionTotal file) 1 := by
      unfold entryCount Header.sectionTotal
      rw [if_neg empty]
      by_cases extended : (headerOf file).sectionCount = 0
      · rw [if_pos extended, if_pos (beq_iff_eq.mpr extended), ← read_eq_entryAt, Nat.mul_zero,
          Nat.add_zero, headerOf_order]
      · rw [if_neg extended, if_neg (beq_iff_eq.not.mpr extended)]
    have size : sectionHeaderSize = 64 := rfl
    have read : (fun index => SectionHeader.read (headerOf file).order file
        ((headerOf file).sectionTable + 64 * index)) = entryAt file :=
      funext fun index => by rw [headerOf_order, read_eq_entryAt]
    rw [if_neg empty]
    dsimp only
    rw [← count, size, read]
    by_cases inside : (headerOf file).sectionTable + 64 * entryCount file ≤ file.size
    · have first : ¬file.size < (headerOf file).sectionTable + 64 := by omega
      have room : (headerOf file).sectionTotal file ≤ file.size / 64 := by omega
      rw [if_neg first, if_pos ⟨room, inside⟩]
      exact ⟨fun found => ⟨fun _ => inside, (Option.some.inj found).symm⟩,
        fun found => congrArg some found.2.symm⟩
    · have refused : ¬((headerOf file).sectionTotal file ≤ file.size / 64 ∧
          (headerOf file).sectionTable + 64 * entryCount file ≤ file.size) :=
        fun permitted => inside permitted.2
      rw [if_neg refused, ite_self]
      exact ⟨nofun, fun found => absurd (found.1 empty) inside⟩

theorem getElem?_entries (file : ByteArray) (index : Nat) :
    (entries file)[index]? =
      if index < entryCount file then some (entryAt file index) else none := by
  rw [entries, List.getElem?_map]
  by_cases inside : index < entryCount file
  · rw [if_pos inside, List.getElem?_range inside]
    rfl
  · rw [if_neg inside, List.getElem?_eq_none (by rwa [List.length_range, ← Nat.not_lt])]
    rfl

/-! ### Sections -/

theorem isPlaced_iff {file : ByteArray} {entry : SectionHeader} :
    entry.isPlaced file.size = true ↔ Placed file entry := by
  simp only [SectionHeader.isPlaced, Bool.or_eq_true, beq_iff_eq, Bool.and_eq_true,
    decide_eq_true_eq]
  constructor
  · rintro ((absent | empty) | inside) stored filled
    · exact absurd absent stored
    · exact absurd empty filled
    · exact inside
  · intro placed
    by_cases absent : entry.kind = 8
    · exact .inl (.inl absent)
    · by_cases empty : entry.size = 0
      · exact .inl (.inr empty)
      · exact .inr (placed absent empty)

/-- The section that is looked up for a string table. Without any section the reader looks behind
the last one, which is as good as anywhere. -/
theorem getElem?_entries_textIndex (file : ByteArray) (index : Nat) :
    (entries file)[if index = extendedIndex then
        ((entries file).head?.map SectionHeader.link).getD (entries file).length else index]? =
      if textIndex file index < entryCount file then
        some (entryAt file (textIndex file index)) else none := by
  rw [getElem?_entries]
  unfold textIndex
  by_cases extended : index = 0xffff
  · rw [if_pos (show index = extendedIndex from extended), if_pos extended]
    have head := getElem?_entries file 0
    rw [← List.head?_eq_getElem?] at head
    rw [head]
    by_cases present : 0 < entryCount file
    · rw [if_pos present, Option.map_some, Option.getD_some]
    · have length : (entries file).length = 0 := by
        rw [entries, List.length_map, List.length_range]
        omega
      have nowhere : ¬(entryAt file 0).link < entryCount file := by omega
      rw [if_neg present, Option.map_none, Option.getD_none, length, if_neg present,
        if_neg nowhere]
  · rw [if_neg (show ¬index = extendedIndex from extended), if_neg extended]

/-- What a string table is, given the section that is found for it. -/
theorem nameTable?_eq {file : ByteArray} {sections : List SectionHeader} {index : Nat}
    {found : Option SectionHeader}
    (looked : sections[if index = extendedIndex then
        (sections.head?.map SectionHeader.link).getD sections.length else index]? = found) :
    nameTable? file sections index = found.elim (some .empty) fun entry =>
      if entry.isPlaced file.size ∧ entry.fileEnd ≤ file.size ∧
        (entry.contents file).validateUTF8 then some (entry.contents file) else none := by
  unfold nameTable?
  dsimp only
  rw [looked]
  cases found with
  | none => rfl
  | some entry => rfl

theorem nameTable?_eq_some_iff {file : ByteArray} {index : Nat} {table : NameTable} :
    nameTable? file (entries file) index = some table ↔
      TextUsable file index ∧ table = textAt file index := by
  rw [nameTable?_eq (getElem?_entries_textIndex file index)]
  unfold TextUsable textAt
  dsimp only
  by_cases present : textIndex file index < entryCount file
  · rw [if_pos present, if_pos present]
    generalize entryAt file (textIndex file index) = entry
    have checked : (entry.isPlaced file.size = true ∧ entry.fileEnd ≤ file.size ∧
        (entry.contents file).validateUTF8 = true) ↔
          Placed file entry ∧ entry.fileEnd ≤ file.size ∧ (entry.contents file).IsValidUTF8 :=
      and_congr isPlaced_iff (and_congr Iff.rfl ByteArray.validateUTF8_eq_true_iff)
    by_cases usable :
        Placed file entry ∧ entry.fileEnd ≤ file.size ∧ (entry.contents file).IsValidUTF8
    · rw [Option.elim_some, if_pos (checked.mpr usable)]
      exact ⟨fun found => ⟨fun _ => usable, (Option.some.inj found).symm⟩,
        fun found => congrArg some found.2.symm⟩
    · rw [Option.elim_some, if_neg (checked.not.mpr usable)]
      exact ⟨nofun, fun found => absurd (found.1 present) usable⟩
  · rw [if_neg present, if_neg present]
    exact ⟨fun found => ⟨fun other => absurd other present, (Option.some.inj found).symm⟩,
      fun found => congrArg some found.2.symm⟩

/-- The last of the indices that pass a test. -/
theorem getLast?_filter_range {test : Nat → Bool} {count index : Nat} :
    ((List.range count).filter test).getLast? = some index ↔
      index < count ∧ test index = true ∧
        ∀ later, index < later → later < count → test later = false := by
  induction count with
  | zero => exact ⟨nofun, fun found => absurd found.1 (Nat.not_lt_zero index)⟩
  | succ count inductionHypothesis =>
    rw [List.range_succ, List.filter_append]
    by_cases last : test count = true
    · rw [List.filter_cons_of_pos last, List.filter_nil, List.getLast?_concat]
      constructor
      · intro found
        cases found
        exact ⟨Nat.lt_succ_self _, last, fun later above below => absurd above (by omega)⟩
      · rintro ⟨within, -, none⟩
        by_contra other
        have before : index < count := by
          have different : count ≠ index := fun same => other (congrArg some same)
          omega
        rw [none count before (Nat.lt_succ_self _)] at last
        cases last
    · rw [List.filter_cons_of_neg last, List.filter_nil, List.append_nil, inductionHypothesis]
      have fails : test count = false := Bool.eq_false_iff.mpr last
      constructor
      · rintro ⟨within, passes, none⟩
        refine ⟨Nat.lt_succ_of_lt within, passes, fun later above below => ?_⟩
        obtain before | rfl := Nat.lt_or_eq_of_le (Nat.le_of_lt_succ below)
        · exact none later above before
        · exact fails
      · rintro ⟨within, passes, none⟩
        refine ⟨?_, passes, fun later above below => none later above (Nat.lt_succ_of_lt below)⟩
        have different : index ≠ count := fun same => last (same ▸ passes)
        omega

/-- Only the last symbol table is looked at. -/
theorem symbolsUsable_iff_forall {file : ByteArray} {sections : List SectionHeader} :
    symbolsUsable file sections = true ↔
      ∀ entry, (sections.filter (·.kind == SectionHeader.symbolTable)).getLast? = some entry →
        entry.offset < file.size ∧ entry.offset + symbolSize * entry.symbolCount ≤ file.size ∧
          ∃ names, nameTable? file sections entry.link = some names := by
  unfold symbolsUsable
  cases (sections.filter (·.kind == SectionHeader.symbolTable)).getLast? with
  | none => exact iff_of_true rfl nofun
  | some entry =>
    simp only [Bool.and_eq_true, decide_eq_true_eq, and_assoc, Option.isSome_iff_exists,
      Option.some.injEq, forall_eq']

theorem symbolsUsable_iff {file : ByteArray} :
    symbolsUsable file (entries file) = true ↔
      ∀ index, IsLastSymbols file index → SymbolsUsable file (entryAt file index) := by
  have isLast : ∀ index, ((List.range (entryCount file)).filter
      ((·.kind == SectionHeader.symbolTable) ∘ entryAt file)).getLast? = some index ↔
        IsLastSymbols file index := by
    intro index
    rw [getLast?_filter_range]
    unfold IsLastSymbols
    simp only [Function.comp_apply, beq_iff_eq, beq_eq_false_iff_ne, SectionHeader.symbolTable]
  have named : ∀ index, (∃ names, nameTable? file (entries file) index = some names) ↔
      TextUsable file index := by
    intro index
    simp only [nameTable?_eq_some_iff, exists_and_left, exists_eq, and_true]
  rw [symbolsUsable_iff_forall]
  simp only [named]
  rw [entries, List.filter_map, List.getLast?_map]
  constructor
  · intro works index last
    exact works (entryAt file index)
      (Option.map_eq_some_iff.mpr ⟨index, (isLast index).mpr last, rfl⟩)
  · intro works entry found
    obtain ⟨index, last, rfl⟩ := Option.map_eq_some_iff.mp found
    exact works index ((isLast index).mp last)

theorem relocationsPlaced_iff {file : ByteArray} :
    relocationsPlaced file.size (entries file) = true ↔
      ∀ index < entryCount file, (entryAt file index).kind = 4 ∨ (entryAt file index).kind = 9 →
        Placed file (entryAt file index) := by
  unfold relocationsPlaced entries
  rw [List.all_eq_true]
  simp only [List.mem_map, List.mem_range, forall_exists_index, and_imp,
    forall_apply_eq_imp_iff₂]
  refine forall₂_congr fun index inside => ?_
  have kinds : ((entryAt file index).kind == SectionHeader.relocations ||
      (entryAt file index).kind == SectionHeader.relocationsWithAddends) = true ↔
        (entryAt file index).kind = 4 ∨ (entryAt file index).kind = 9 := by
    rw [Bool.or_eq_true, beq_iff_eq, beq_iff_eq, or_comm]
    rfl
  rw [← kinds]
  by_cases relocates : ((entryAt file index).kind == SectionHeader.relocations ||
      (entryAt file index).kind == SectionHeader.relocationsWithAddends) = true
  · rw [if_pos relocates]
    exact isPlaced_iff.trans ⟨fun placed _ => placed, fun placed => placed relocates⟩
  · rw [if_neg relocates]
    exact ⟨fun _ other => absurd other relocates, fun _ => rfl⟩

/-! ### Reading -/

/-- The tables of a file are read if it follows the rules, and then they are what stands in it. -/
theorem read?_eq_some_iff {file : ByteArray} {tables : File} :
    File.read? file = some tables ↔
      Reliable file ∧ tables = ⟨headerOf file, entries file, sectionNames file⟩ := by
  unfold File.read?
  constructor
  · intro found
    cases header : Header.read? file with
    | none =>
      rw [header] at found
      cases found
    | some fields =>
      obtain ⟨⟨large, order⟩, rfl⟩ := header_read?_eq_some_iff.mp header
      rw [header] at found
      dsimp only at found
      obtain ⟨programs, found⟩ := Option.ite_none_right_eq_some.mp found
      cases sections : (headerOf file).sections? file with
      | none =>
        rw [sections] at found
        cases found
      | some list =>
        obtain ⟨inside, rfl⟩ := sections?_eq_some_iff.mp sections
        rw [sections] at found
        dsimp only at found
        cases names : nameTable? file (entries file) (headerOf file).nameIndex with
        | none =>
          rw [names] at found
          cases found
        | some table =>
          obtain ⟨usable, rfl⟩ := nameTable?_eq_some_iff.mp names
          rw [names] at found
          obtain ⟨checked, found⟩ := Option.ite_none_right_eq_some.mp found
          rw [Bool.and_eq_true, symbolsUsable_iff, relocationsPlaced_iff] at checked
          cases found
          exact ⟨⟨large, order, programTableInside_iff.mp programs, inside, usable, checked.1,
            checked.2⟩, rfl⟩
  · rintro ⟨⟨large, order, programs, inside, usable, symbols, relocations⟩, rfl⟩
    rw [header_read?_eq_some_iff.mpr ⟨⟨large, order⟩, rfl⟩]
    dsimp only
    rw [if_pos (programTableInside_iff.mpr programs), sections?_eq_some_iff.mpr ⟨inside, rfl⟩]
    dsimp only
    rw [nameTable?_eq_some_iff.mpr ⟨usable, rfl⟩]
    dsimp only
    rw [symbolsUsable_iff.mpr symbols, relocationsPlaced_iff.mpr relocations]
    rfl

end Hart.Elf
