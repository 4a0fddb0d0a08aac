/-
This file proves that bytes behind the end of a file make no difference to what the tables of the
file say. All checks on the tables compare with the size of the file from below, and once they are
passed, everything that is read lies in front of the old end: the file header, the section headers,
the names, and the contents of sections. So whatever is decided after the tables have been accepted
stays decided, up to one verdict. Code that reaches beyond the end of a file may well lie inside a
longer one.
-/

import Hart.Proofs.Verdict

namespace Hart

open Bytes (Stands byteAt)

/-! ### Bytes in front of the end -/

namespace Bytes

theorem byteAt_append_left {first : ByteArray} (second : ByteArray) {index : Nat}
    (inside : index < first.size) : byteAt (first ++ second) index = byteAt first index := by
  rw [byteAt_append, if_pos inside]

theorem Stands.append {buffer : ByteArray} {start : Nat} {bytes : List UInt8}
    (stands : Stands buffer start bytes) (more : ByteArray) :
    Stands (buffer ++ more) start bytes := by
  obtain ⟨inside, equal⟩ := stands
  refine ⟨?_, ?_⟩
  · rw [ByteArray.size_append]
    omega
  · rw [slice_append_left _ _ _ _ inside, equal]

end Bytes

namespace Elf

variable {file : ByteArray} (more : ByteArray)

theorem SectionHeader.contents_append {entry : SectionHeader} (inside : entry.fileEnd ≤ file.size) :
    entry.contents (file ++ more) = entry.contents file := by
  have behind : more.extract (entry.offset - file.size) 0 = .empty := by simp
  rw [contents, contents, ByteArray.extract_append, Nat.sub_eq_zero_of_le inside, behind,
    ByteArray.append_empty]

/-- What lies inside a file lies inside a longer one. -/
theorem Placed.append {entry : SectionHeader} (placed : Placed file entry) :
    Placed (file ++ more) entry := by
  intro stored filled
  obtain ⟨inside, addressed⟩ := placed stored filled
  rw [ByteArray.size_append]
  exact ⟨by omega, addressed⟩

/-! ### Headers -/

section

variable (large : 64 ≤ file.size)
include large

theorem announcedOrder_append : announcedOrder (file ++ more) = announcedOrder file := by
  unfold announcedOrder
  rw [Bytes.byteAt_append_left more (by omega)]

theorem numberAt_append {start width : Nat} (inside : start + width ≤ file.size) :
    numberAt (file ++ more) start width = numberAt file start width := by
  rw [← field_eq_numberAt, ← field_eq_numberAt, announcedOrder_append more large, field, field,
    Bytes.slice_append_left _ _ _ _ inside]

theorem headerOf_append : headerOf (file ++ more) = headerOf file := by
  have read : ∀ start width, start + width ≤ 64 →
      numberAt (file ++ more) start width = numberAt file start width :=
    fun start width inside => numberAt_append more large (by omega)
  simp [headerOf, announcedOrder_append more large, read]

theorem entryAt_append {index : Nat}
    (inside : (headerOf file).sectionTable + 64 * index + 64 ≤ file.size) :
    entryAt (file ++ more) index = entryAt file index := by
  have read : ∀ offset width, offset + width ≤ 64 →
      numberAt (file ++ more) ((headerOf file).sectionTable + 64 * index + offset) width =
        numberAt file ((headerOf file).sectionTable + 64 * index + offset) width :=
    fun offset width within => numberAt_append more large (by omega)
  have first := read 0
  simp only [Nat.add_zero] at first
  simp [entryAt, headerOf_append more large, read, first]

end

/-! ### Tables -/

namespace Reliable

variable (reliable : Reliable file)
include reliable

theorem headerOf_append : headerOf (file ++ more) = headerOf file :=
  Elf.headerOf_append more reliable.header

/-- Every section header lies inside the file. -/
theorem entryAt_append {index : Nat} (present : index < entryCount file) :
    entryAt (file ++ more) index = entryAt file index := by
  have stored : (headerOf file).sectionTable ≠ 0 := by
    intro none
    rw [entryCount, if_pos none] at present
    exact Nat.not_lt_zero index present
  have inside := reliable.entries stored
  exact Elf.entryAt_append more reliable.header (by omega)

/-- The number of section headers stands in the file header or in the first section header. -/
theorem entryCount_append : entryCount (file ++ more) = entryCount file := by
  by_cases none : (headerOf file).sectionTable = 0
  · rw [entryCount, entryCount, reliable.headerOf_append more, if_pos none, if_pos none]
  · have present : 0 < entryCount file := by
      rw [entryCount, if_neg none]
      exact Nat.lt_of_lt_of_le Nat.one_pos (Nat.le_max_right _ 1)
    rw [entryCount, entryCount, reliable.headerOf_append more, reliable.entryAt_append more present]

theorem entries_append : Elf.entries (file ++ more) = Elf.entries file := by
  unfold Elf.entries
  rw [reliable.entryCount_append more]
  exact List.map_congr_left fun index present =>
    reliable.entryAt_append more (List.mem_range.mp present)

/-- Which string table an index stands for. It only matters where there are sections at all. -/
theorem textIndex_append (present : 0 < entryCount file) (index : Nat) :
    textIndex (file ++ more) index = textIndex file index := by
  rw [textIndex, textIndex, reliable.entryAt_append more present]

theorem textUsable_append {index : Nat} (usable : TextUsable file index) :
    TextUsable (file ++ more) index := by
  intro present
  rw [reliable.entryCount_append more] at present
  have same := reliable.textIndex_append more (Nat.zero_lt_of_lt present) index
  rw [same] at present ⊢
  obtain ⟨placed, inside, valid⟩ := usable present
  dsimp only
  rw [reliable.entryAt_append more present, SectionHeader.contents_append more inside,
    ByteArray.size_append]
  exact ⟨placed.append more, by omega, valid⟩

theorem textAt_append {index : Nat} (usable : TextUsable file index) :
    textAt (file ++ more) index = textAt file index := by
  unfold textAt
  rw [reliable.entryCount_append more]
  by_cases none : entryCount file = 0
  · simp [none]
  · rw [reliable.textIndex_append more (Nat.pos_of_ne_zero none)]
    by_cases present : textIndex file index < entryCount file
    · rw [if_pos present, if_pos present, reliable.entryAt_append more present,
        SectionHeader.contents_append more (usable present).2.1]
    · rw [if_neg present, if_neg present]

/-- The tables of a file are those of every longer one. -/
theorem tablesOf_append : tablesOf (file ++ more) = tablesOf file := by
  unfold tablesOf sectionNames
  rw [reliable.headerOf_append more, reliable.entries_append more,
    reliable.textAt_append more reliable.names]

theorem isLastSymbols_append {index : Nat} (last : IsLastSymbols (file ++ more) index) :
    IsLastSymbols file index := by
  obtain ⟨present, kind, none⟩ := last
  rw [reliable.entryCount_append more] at present none
  rw [reliable.entryAt_append more present] at kind
  refine ⟨present, kind, fun later behind present' => ?_⟩
  rw [← reliable.entryAt_append more present']
  exact none later behind present'

/-- The rules that the tables of a file follow are followed by every longer one. -/
theorem append : Reliable (file ++ more) where
  header := by
    have large := reliable.header
    rw [ByteArray.size_append]
    omega
  order := by
    have large := reliable.header
    rw [Bytes.byteAt_append_left more (by omega)]
    exact reliable.order
  programs some := by
    rw [reliable.headerOf_append more] at some ⊢
    have inside := reliable.programs some
    rw [ByteArray.size_append]
    omega
  entries some := by
    rw [reliable.headerOf_append more] at some ⊢
    have inside := reliable.entries some
    rw [reliable.entryCount_append more, ByteArray.size_append]
    omega
  names := by
    rw [reliable.headerOf_append more]
    exact reliable.textUsable_append more reliable.names
  symbols index last := by
    have last := reliable.isLastSymbols_append more last
    obtain ⟨starts, inside, usable⟩ := reliable.symbols index last
    rw [reliable.entryAt_append more last.1]
    unfold SymbolsUsable
    rw [ByteArray.size_append]
    exact ⟨by omega, by omega, reliable.textUsable_append more usable⟩
  relocations index present kind := by
    rw [reliable.entryCount_append more] at present
    rw [reliable.entryAt_append more present] at kind ⊢
    exact (reliable.relocations index present kind).append more

end Reliable

/-! ### Verdicts -/

/-- Code that lies inside a file is found in every longer one, and a section without contents stays
one. -/
theorem SectionHeader.image_append {entry : SectionHeader} {header : Header}
    (stored : entry.image header file ≠ .error .textOutsideFile) :
    entry.image header (file ++ more) = entry.image header file := by
  unfold image at stored ⊢
  by_cases absent : entry.kind = noContents
  · rw [if_pos absent, if_pos absent]
  · rw [if_neg absent] at stored ⊢
    have inside : ¬file.size < entry.fileEnd := fun beyond => stored (if_pos beyond)
    have inside' : ¬(file ++ more).size < entry.fileEnd := by
      rw [ByteArray.size_append]
      omega
    rw [if_neg absent, if_neg inside, if_neg inside',
      contents_append more (Nat.not_lt.mp inside)]

theorem File.image_append {tables : File} (stored : tables.image file ≠ .error .textOutsideFile) :
    tables.image (file ++ more) = tables.image file := by
  unfold image at stored ⊢
  by_cases supported : tables.header.isSupported
  · rw [if_pos supported] at stored ⊢
    rw [if_pos supported]
    match texts : tables.texts with
    | [] => rfl
    | [entry] =>
      rw [texts] at stored
      exact SectionHeader.image_append more stored
    | _ :: _ :: _ => rfl
  · rw [if_neg supported, if_neg supported]

end Elf

/-- Whether an error is a verdict on tables that were accepted. Whether code lies inside the file is
not said by the tables alone. -/
def LoadError.SaidByTables : LoadError → Prop
  | .unsupportedTarget _ _ | .missingText | .severalTexts | .textWithoutContents => True
  | .badMagic | .not64Bit | .malformed | .textOutsideFile | .overflow _ _ _ => False

namespace Image

open Elf (Reliable Stage tablesOf)

variable {file : ByteArray} (more : ByteArray)

/-- A file that was not refused for one of the first three reasons has passed the first three
checks. -/
theorem passes_of_ofElf (magic : ofElf file ≠ .error .badMagic)
    (wordSize : ofElf file ≠ .error .not64Bit) (tables : ofElf file ≠ .error .malformed) :
    Stage.Passes file .magic ∧ Stage.Passes file .wordSize ∧ Reliable file := by
  obtain ⟨index, passes, -⟩ | ⟨stage, first, refused⟩ := Elf.ofElf_cases file
  · exact ⟨passes .magic, passes .wordSize, passes .tables⟩
  · cases stage with
    | magic => exact absurd refused magic
    | wordSize => exact absurd refused wordSize
    | tables => exact absurd refused tables
    | _ =>
      exact ⟨first.before .magic (by decide), first.before .wordSize (by decide),
        first.before .tables (by decide)⟩

/-- Once the tables are accepted, only code outside the file is not a final verdict. -/
theorem ofElf_append_of_ne (magic : ofElf file ≠ .error .badMagic)
    (wordSize : ofElf file ≠ .error .not64Bit) (tables : ofElf file ≠ .error .malformed)
    (stored : ofElf file ≠ .error .textOutsideFile) : ofElf (file ++ more) = ofElf file := by
  obtain ⟨magic, wordSize, reliable⟩ := passes_of_ofElf magic wordSize tables
  have read := Elf.ofElf_of_reliable magic wordSize reliable
  rw [read] at stored
  rw [read, Elf.ofElf_of_reliable (magic.append more) (wordSize.append more) (reliable.append more),
    reliable.tablesOf_append more, Elf.File.image_append more stored]

/-- A file can be loaded exactly if its image ends inside memory. -/
theorem load_eq_ok_iff {capacity : Nat} {image : Image} :
    load file capacity = .ok image ↔
      ofElf file = .ok image ∧ image.address.toNat + image.code.size ≤ capacity := by
  refine ⟨fun loaded => ?_, fun both => load_of_fits both.1 both.2⟩
  cases parsed : ofElf file with
  | error error =>
    rw [load_of_error parsed] at loaded
    cases loaded
  | ok found =>
    by_cases fits : found.address.toNat + found.code.size ≤ capacity
    · rw [load_of_fits parsed fits] at loaded
      cases loaded
      exact ⟨rfl, fits⟩
    · rw [load_of_not_fits parsed fits] at loaded
      cases loaded

/-- Appending bytes to a file changes nothing that was decided after its tables were accepted. The
image that is taken out of the file is taken out of the longer one, a file that is for another
machine, or has no section of code, or several, or one without contents, is refused for the same
reason, and what could be loaded can be loaded into every memory that is not smaller. -/
theorem ofElf_append (file more : ByteArray) :
    (∀ image, ofElf file = .ok image → ofElf (file ++ more) = .ok image) ∧
      (∀ error : LoadError, error.SaidByTables → ofElf file = .error error →
        ofElf (file ++ more) = .error error) ∧
      (∀ capacity larger image, capacity ≤ larger → load file capacity = .ok image →
        load (file ++ more) larger = .ok image) := by
  have accepted : ∀ image, ofElf file = .ok image → ofElf (file ++ more) = .ok image := by
    intro image found
    rw [ofElf_append_of_ne more, found] <;> rw [found] <;> nofun
  refine ⟨accepted, fun error said refused => ?_, fun capacity larger image grows loaded => ?_⟩
  · rw [ofElf_append_of_ne more, refused]
    all_goals
      rw [refused]
      rintro ⟨⟩
      exact said
  · obtain ⟨found, fits⟩ := load_eq_ok_iff.mp loaded
    exact load_eq_ok_iff.mpr ⟨accepted image found, fits.trans grows⟩

open Simulator (smallFile ofElf_smallFile) in
/-- The small file with five bytes behind it, as it is, and with a second section that bears the
name of the first one. -/
theorem ofElf_append_smallFile :
    let more : ByteArray := ⟨#[0x2e, 0x74, 0x65, 0x78, 0x74]⟩
    let doubled := smallFile.set! 144 0
    (∃ image, ofElf smallFile = .ok image ∧ ofElf (smallFile ++ more) = .ok image ∧
        load smallFile 20 = .ok image ∧ load (smallFile ++ more) 32 = .ok image) ∧
      LoadError.severalTexts.SaidByTables ∧ ofElf doubled = .error .severalTexts ∧
        ofElf (doubled ++ more) = .error .severalTexts := by
  intro more doubled
  obtain ⟨accepted, -, loads⟩ := ofElf_append smallFile more
  refine ⟨?_, trivial, ?_⟩
  · obtain ⟨image, found, -, address, code⟩ := ofElf_smallFile
    have size : image.code.size = 4 := congrArg List.length code
    have fits : image.address.toNat + image.code.size ≤ 20 := by
      rw [address, size]
      decide
    have loaded : load smallFile 20 = .ok image := load_eq_ok_iff.mpr ⟨found, fits⟩
    exact ⟨image, found, accepted image found, loaded, loads 20 32 image (by decide) loaded⟩
  · have error : (ofElf doubled).map (fun _ => ()) = .error .severalTexts := by decide +kernel
    have refused : ofElf doubled = .error .severalTexts := by
      cases verdict : ofElf doubled with
      | ok image =>
        rw [verdict] at error
        cases error
      | error reason =>
        rw [verdict] at error
        cases error
        rfl
    exact ⟨refused, (ofElf_append doubled more).2.1 .severalTexts trivial refused⟩

end Image

end Hart
