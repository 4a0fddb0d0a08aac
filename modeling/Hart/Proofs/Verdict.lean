/-
This file says what becomes of a file, whatever is in it. The checks form eight stages, each of
which is a statement on the bytes of the file, and they come in a fixed order. A file that passes
all of them holds an image, and the image is read off the file header and the one section of code.
Any other file is refused with the error of the first stage that it fails, however many defects it
has.
-/

import Hart.Elf.Load
import Hart.Proofs.Acceptance
import Hart.Proofs.Loading

namespace Hart

open Bytes (Stands byteAt)

namespace Elf

/-! ### Sections of code -/

/-- Whether the section header with an index is one of a section of code. Its name starts where the
header says, be it in the middle of another name, and ends with a zero byte or with the table. -/
structure IsText (file : ByteArray) (index : Nat) : Prop where
  inside : index < entryCount file
  stands : Stands (sectionNames file) (entryAt file index).nameOffset textName
  ends : (entryAt file index).nameOffset + textName.length = (sectionNames file).size ∨
    byteAt (sectionNames file) ((entryAt file index).nameOffset + textName.length) = 0

variable {file : ByteArray} {index other : Nat}

theorem isText_iff :
    IsText file index ↔
      index < entryCount file ∧
        (sectionNames file).name? (entryAt file index).nameOffset = some textName := by
  have nulFree : 0 ∉ textName := zero_not_mem_bytes (by decide : '\x00' ∉ ".text".toList)
  have starts : ∀ byte ∈ textName.head?, continuesCharacter byte = false :=
    continuesCharacter_of_head ".text"
  constructor
  · rintro ⟨inside, stands, ends⟩
    exact ⟨inside, (name?_eq_some_iff nulFree starts).mpr ⟨stands, ends⟩⟩
  · rintro ⟨inside, named⟩
    obtain ⟨stands, ends⟩ := (name?_eq_some_iff nulFree starts).mp named
    exact ⟨inside, stands, ends⟩

/-- The tables of a file that follows the rules. -/
def tablesOf (file : ByteArray) : File :=
  ⟨headerOf file, entries file, sectionNames file⟩

/-- There is no section of code, or one, or there are several. -/
theorem texts_cases (file : ByteArray) :
    ((tablesOf file).texts = [] ∧ ∀ index, ¬IsText file index) ∨
    (∃ index, (tablesOf file).texts = [entryAt file index] ∧ IsText file index ∧
      ∀ other, IsText file other → other = index) ∨
    (∃ first second rest, (tablesOf file).texts = first :: second :: rest ∧
      ∃ index other, IsText file index ∧ IsText file other ∧ index ≠ other) := by
  let test : Nat → Bool := fun index =>
    (sectionNames file).name? (entryAt file index).nameOffset = some textName
  have texts : (tablesOf file).texts =
      ((List.range (entryCount file)).filter test).map (entryAt file) := List.filter_map
  have member : ∀ index, index ∈ (List.range (entryCount file)).filter test ↔
      IsText file index := by
    intro index
    rw [List.mem_filter, List.mem_range, isText_iff, decide_eq_true_eq]
  have distinct : ((List.range (entryCount file)).filter test).Nodup :=
    List.nodup_range.filter _
  rw [texts]
  generalize (List.range (entryCount file)).filter test = found at member distinct
  match found with
  | [] => exact .inl ⟨rfl, fun index isText => nomatch (member index).mpr isText⟩
  | [index] =>
    exact .inr (.inl ⟨index, rfl, (member index).mp List.mem_cons_self,
      fun other isText => List.mem_singleton.mp ((member other).mpr isText)⟩)
  | index :: other :: rest =>
    have different : index ≠ other := fun same =>
      (List.nodup_cons.mp distinct).1 (same ▸ List.mem_cons_self)
    exact .inr (.inr ⟨_, _, _, rfl, index, other, (member index).mp List.mem_cons_self,
      (member other).mp (List.mem_cons_of_mem _ List.mem_cons_self), different⟩)

/-! ### The stages -/

/-- The stages of the checks. -/
inductive Stage where
  | magic | wordSize | tables | target | codePresent | codeUnique | codeStored | codeInside

namespace Stage

/-- The order in which the stages come. -/
def rank : Stage → Nat
  | magic => 0
  | wordSize => 1
  | tables => 2
  | target => 3
  | codePresent => 4
  | codeUnique => 5
  | codeStored => 6
  | codeInside => 7

/-- The error of a stage. Only that of the target depends on the file. -/
def error (file : ByteArray) : Stage → LoadError
  | magic => .badMagic
  | wordSize => .not64Bit
  | tables => .malformed
  | target => .unsupportedTarget (headerOf file).fileType (headerOf file).machine
  | codePresent => .missingText
  | codeUnique => .severalTexts
  | codeStored => .textWithoutContents
  | codeInside => .textOutsideFile

/-- What a file has to be like to pass a stage. -/
def Passes (file : ByteArray) : Stage → Prop
  | magic => Stands file 0 [0x7f, 0x45, 0x4c, 0x46]
  | wordSize => Stands file 4 [2]
  | tables => Reliable file
  | target => (headerOf file).fileType = 2 ∧ (headerOf file).machine = 243
  | codePresent => ∃ index, IsText file index
  | codeUnique => ∀ index other, IsText file index → IsText file other → other = index
  | codeStored => ∀ index, IsText file index → (entryAt file index).kind ≠ 8
  | codeInside => ∀ index, IsText file index →
      (entryAt file index).offset + (entryAt file index).size ≤ file.size

/-- Whether a stage is the first one that a file fails. -/
structure FirstFails (file : ByteArray) (stage : Stage) : Prop where
  fails : ¬Passes file stage
  before : ∀ earlier : Stage, earlier.rank < stage.rank → Passes file earlier

theorem rank_injective : Function.Injective rank := by
  intro first second same
  cases first <;> cases second <;> first | rfl | cases same

/-- A file that fails a stage fails one of them first. -/
theorem exists_firstFails {stage : Stage} (fails : ¬Passes file stage) :
    ∃ first, FirstFails file first := by
  obtain ⟨first, fails, least⟩ :=
    (measure rank).wf.has_min {stage | ¬Passes file stage} ⟨stage, fails⟩
  exact ⟨first, fails, fun earlier before =>
    not_not.mp fun fails' => least earlier fails' before⟩

theorem FirstFails.eq {first second : Stage} (fails : FirstFails file first)
    (fails' : FirstFails file second) : first = second := by
  rcases Nat.lt_trichotomy first.rank second.rank with before | same | behind
  · exact absurd (fails'.before first before) fails.fails
  · exact rank_injective same
  · exact absurd (fails.before second behind) fails'.fails

end Stage

/-! ### One stage after the other -/

open Stage (Passes FirstFails)

theorem hasMagic_iff : hasMagic file = true ↔ Passes file .magic := by
  unfold hasMagic
  rw [Bool.and_eq_true, decide_eq_true_eq, beq_iff_eq]
  exact and_congr (by rw [Nat.zero_add]; rfl) Iff.rfl

theorem isClass64_iff : isClass64 file = true ↔ Passes file .wordSize := by
  unfold isClass64
  rw [Bool.and_eq_true, decide_eq_true_eq, beq_iff_eq]
  exact and_congr Iff.rfl ⟨fun byte => congrArg (fun byte => [byte]) byte, List.head_eq_of_cons_eq⟩

theorem read?_of_passes (tables : Passes file .tables) : File.read? file = some (tablesOf file) :=
  read?_eq_some_iff.mpr ⟨tables, rfl⟩

theorem read?_of_fails (tables : ¬Passes file .tables) : File.read? file = none := by
  cases found : File.read? file with
  | none => rfl
  | some read => exact absurd (read?_eq_some_iff.mp found).1 tables

theorem isSupported_iff : (headerOf file).isSupported = true ↔ Passes file .target := by
  unfold Header.isSupported
  rw [Bool.and_eq_true, beq_iff_eq, beq_iff_eq]
  rfl

theorem ofElf_of_class64 (magic : Passes file .magic) (wordSize : Passes file .wordSize) :
    Image.ofElf file =
      match File.read? file with
      | some tables => tables.image file
      | none => .error .malformed :=
  (if_pos (hasMagic_iff.mpr magic)).trans (if_pos (isClass64_iff.mpr wordSize))

theorem ofElf_of_reliable (magic : Passes file .magic) (wordSize : Passes file .wordSize)
    (tables : Passes file .tables) : Image.ofElf file = (tablesOf file).image file := by
  rw [ofElf_of_class64 magic wordSize, read?_of_passes tables]

/-- Whether a file passes the stages that do not look at its sections of code. -/
structure Addressed (file : ByteArray) : Prop where
  magic : Passes file .magic
  wordSize : Passes file .wordSize
  tables : Passes file .tables
  target : Passes file .target

theorem Stage.FirstFails.addressed {stage : Stage} (first : FirstFails file stage)
    (late : Stage.target.rank < stage.rank) : Addressed file where
  magic := first.before .magic (Nat.lt_trans (by decide) late)
  wordSize := first.before .wordSize (Nat.lt_trans (by decide) late)
  tables := first.before .tables (Nat.lt_trans (by decide) late)
  target := first.before .target late

/-- From there on it is a matter of the sections of code. -/
theorem Addressed.ofElf_eq (addressed : Addressed file) :
    Image.ofElf file =
      match (tablesOf file).texts with
      | [] => .error .missingText
      | [entry] => entry.image (headerOf file) file
      | _ => .error .severalTexts := by
  rw [ofElf_of_reliable addressed.magic addressed.wordSize addressed.tables, File.image]
  exact if_pos (isSupported_iff.mpr addressed.target)

/-- With one section of code it is a matter of that section. -/
theorem Addressed.ofElf_of_text (addressed : Addressed file) (isText : IsText file index)
    (unique : Passes file .codeUnique) :
    Image.ofElf file = (entryAt file index).image (headerOf file) file := by
  rw [addressed.ofElf_eq]
  obtain ⟨-, missing⟩ | ⟨found, texts, isText', only⟩ |
    ⟨first, second, rest, -, found, found', isText', isText'', different⟩ := texts_cases file
  · exact absurd isText (missing index)
  · rw [texts, only index isText]
  · exact absurd (unique found' found isText'' isText') different

/-! ### Verdicts -/

variable {stage : Stage}

/-- The image that the file header and a section header describe. -/
def imageAt (file : ByteArray) (index : Nat) : Image where
  entry := UInt64.ofNat (headerOf file).entry
  address := UInt64.ofNat (entryAt file index).address
  code := file.extract (entryAt file index).offset
    ((entryAt file index).offset + (entryAt file index).size)

/-- A file that passes all stages is accepted. -/
theorem ofElf_of_passes (passes : ∀ stage, Passes file stage) (isText : IsText file index) :
    Image.ofElf file = .ok (imageAt file index) := by
  have stored : (entryAt file index).kind ≠ SectionHeader.noContents :=
    passes .codeStored index isText
  have inside : ¬file.size < (entryAt file index).fileEnd :=
    Nat.not_lt.mpr (passes .codeInside index isText)
  have addressed : Addressed file :=
    ⟨passes .magic, passes .wordSize, passes .tables, passes .target⟩
  rw [addressed.ofElf_of_text isText (passes .codeUnique), SectionHeader.image, if_neg stored,
    if_neg inside]
  rfl

/-- The error of the first failing stage wins. -/
theorem ofElf_of_firstFails (first : FirstFails file stage) :
    Image.ofElf file = .error (stage.error file) := by
  have fails := first.fails
  cases stage with
  | magic => exact if_neg (hasMagic_iff.not.mpr fails)
  | wordSize =>
    rw [Image.ofElf, if_pos (hasMagic_iff.mpr (first.before .magic (by decide))),
      if_neg (isClass64_iff.not.mpr fails)]
    rfl
  | tables =>
    rw [ofElf_of_class64 (first.before .magic (by decide)) (first.before .wordSize (by decide)),
      read?_of_fails fails]
    rfl
  | target =>
    rw [ofElf_of_reliable (first.before .magic (by decide)) (first.before .wordSize (by decide))
      (first.before .tables (by decide)), File.image]
    exact if_neg (isSupported_iff.not.mpr fails)
  | codePresent =>
    rw [(first.addressed (by decide)).ofElf_eq]
    obtain ⟨texts, -⟩ | ⟨index, -, isText, -⟩ | ⟨-, -, -, -, index, -, isText, -⟩ :=
      texts_cases file
    · rw [texts]
      rfl
    · exact absurd ⟨index, isText⟩ fails
    · exact absurd ⟨index, isText⟩ fails
  | codeUnique =>
    rw [(first.addressed (by decide)).ofElf_eq]
    obtain ⟨-, missing⟩ | ⟨index, -, -, only⟩ | ⟨entry, entry', rest, texts, -⟩ :=
      texts_cases file
    · exact absurd (fun index _ isText _ => absurd isText (missing index)) fails
    · exact absurd (fun found other isText isText' =>
        (only other isText').trans (only found isText).symm) fails
    · rw [texts]
      rfl
  | codeStored =>
    obtain ⟨index, isText, absent⟩ :
        ∃ index, IsText file index ∧ (entryAt file index).kind = 8 := by
      by_contra none
      exact fails fun index isText absent => none ⟨index, isText, absent⟩
    rw [(first.addressed (by decide)).ofElf_of_text isText (first.before .codeUnique (by decide))]
    exact if_pos absent
  | codeInside =>
    obtain ⟨index, isText, beyond⟩ : ∃ index, IsText file index ∧
        file.size < (entryAt file index).offset + (entryAt file index).size := by
      by_contra none
      exact fails fun index isText => Nat.not_lt.mp fun beyond => none ⟨index, isText, beyond⟩
    have stored : (entryAt file index).kind ≠ SectionHeader.noContents :=
      first.before .codeStored (by decide) index isText
    rw [(first.addressed (by decide)).ofElf_of_text isText (first.before .codeUnique (by decide)),
      SectionHeader.image, if_neg stored]
    exact if_pos beyond

/-- A file is accepted or has a first stage that it fails. -/
theorem ofElf_cases (file : ByteArray) :
    (∃ index, (∀ stage, Passes file stage) ∧ IsText file index ∧
      Image.ofElf file = .ok (imageAt file index)) ∨
    ∃ stage, FirstFails file stage ∧ Image.ofElf file = .error (stage.error file) := by
  by_cases passes : ∀ stage, Passes file stage
  · obtain ⟨index, isText⟩ := passes .codePresent
    exact .inl ⟨index, passes, isText, ofElf_of_passes passes isText⟩
  · obtain ⟨stage, fails⟩ := not_forall.mp passes
    obtain ⟨first, firstFails⟩ := Stage.exists_firstFails fails
    exact .inr ⟨first, firstFails, ofElf_of_firstFails firstFails⟩

/-- What becomes of a file. If an image is taken out of it, the file starts with the magic bytes, is
of the 64-bit class, follows the rules for its tables, is an executable for this machine, and has
just one section of code, whose contents are stored and lie inside the file; the image is then the
entry of the file header, the address of that section, and its contents. If the file is refused, the
error is that of the first stage that it fails, and the other way round. A file that passes every
stage is accepted. -/
theorem ofElf_verdict (file : ByteArray) :
    (∀ image, Image.ofElf file = .ok image →
        Stands file 0 [0x7f, 0x45, 0x4c, 0x46] ∧ Stands file 4 [2] ∧ Reliable file ∧
          (headerOf file).fileType = 2 ∧ (headerOf file).machine = 243 ∧
          ∃ index, IsText file index ∧ (∀ other, IsText file other → other = index) ∧
            (entryAt file index).kind ≠ 8 ∧
            (entryAt file index).offset + (entryAt file index).size ≤ file.size ∧
            image.entry.toNat = (headerOf file).entry ∧
            image.address.toNat = (entryAt file index).address ∧
            image.code = file.extract (entryAt file index).offset
              ((entryAt file index).offset + (entryAt file index).size)) ∧
      (∀ error, Image.ofElf file = .error error ↔
        ∃! stage, FirstFails file stage ∧ error = stage.error file) ∧
      ((∀ stage, Passes file stage) → ∃ image, Image.ofElf file = .ok image) := by
  refine ⟨fun image accepted => ?_, fun error => ⟨fun refused => ?_, ?_⟩, fun passes => ?_⟩
  · obtain ⟨index, passes, isText, found⟩ | ⟨stage, -, refused⟩ := ofElf_cases file
    · cases accepted.symm.trans found
      obtain ⟨supported, supported'⟩ := passes .target
      refine ⟨passes .magic, passes .wordSize, passes .tables, supported, supported', index,
        isText, fun other isText' => passes .codeUnique index other isText isText',
        passes .codeStored index isText, passes .codeInside index isText, ?_, ?_, rfl⟩
      · exact UInt64.toNat_ofNat_of_lt (numberAt_lt file 24 8)
      · exact UInt64.toNat_ofNat_of_lt (numberAt_lt file _ 8)
    · cases accepted.symm.trans refused
  · obtain ⟨index, -, -, found⟩ | ⟨stage, firstFails, refused'⟩ := ofElf_cases file
    · cases refused.symm.trans found
    · cases refused.symm.trans refused'
      exact ⟨stage, ⟨firstFails, rfl⟩, fun other found => found.1.eq firstFails⟩
  · rintro ⟨stage, ⟨firstFails, rfl⟩, -⟩
    exact ofElf_of_firstFails firstFails
  · obtain ⟨index, isText⟩ := passes .codePresent
    exact ⟨_, ofElf_of_passes passes isText⟩

open Simulator (smallFile ofElf_smallFile) in
/-- The small file is accepted. With two defects, for it is no executable any more and its code is
not stored, it is refused for the first of them. -/
theorem ofElf_verdict_smallFile :
    let damaged := (smallFile.set! 16 3).set! 84 8
    (∃ image index, Image.ofElf smallFile = .ok image ∧ IsText smallFile index ∧
        (∀ other, IsText smallFile other → other = index) ∧
        image.code = smallFile.extract (entryAt smallFile index).offset
          ((entryAt smallFile index).offset + (entryAt smallFile index).size)) ∧
      Image.ofElf damaged = .error (.unsupportedTarget 3 243) ∧ FirstFails damaged .target := by
  intro damaged
  have error : (Image.ofElf damaged).map (fun _ => ()) = .error (.unsupportedTarget 3 243) := by
    decide +kernel
  have refused : Image.ofElf damaged = .error (.unsupportedTarget 3 243) := by
    cases verdict : Image.ofElf damaged with
    | ok image =>
      rw [verdict] at error
      cases error
    | error reason =>
      rw [verdict] at error
      cases error
      rfl
  refine ⟨?_, refused, ?_⟩
  · obtain ⟨image, accepted, -⟩ := ofElf_smallFile
    obtain ⟨-, -, -, -, -, index, isText, only, -, -, -, -, code⟩ :=
      (ofElf_verdict smallFile).1 image accepted
    exact ⟨image, index, accepted, isText, only, code⟩
  · obtain ⟨stage, ⟨firstFails, same⟩, -⟩ := ((ofElf_verdict damaged).2.1 _).mp refused
    cases stage with
    | target => exact firstFails
    | _ => cases same

end Elf

end Hart
