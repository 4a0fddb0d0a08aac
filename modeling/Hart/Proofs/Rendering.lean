/-
This file proves that canonical assembly text says everything about the word that it was made from.
Text is a mnemonic and the operands of the format behind it. A blank ends the mnemonic and a comma
each operand but the last; neither occurs where it would be mistaken for an end, so the text falls
apart again into what it was made from. The mnemonic names the operation. The operation settles the
format, and under one format the operands that are shown are all there is to the slots: a register
stands for a number below 32, an immediate is written with all its bits, and a slot that is not
shown holds zero.

The operands are written down here before they are spelled, since the listing spells them in another
way.
-/

import Hart.Instruction.Text
import Hart.Proofs.Numerals
import Hart.Proofs.Sources

namespace Hart

/-! ### Separators -/

theorem mark_mem_intercalate {mark : Char} {gap piece next : List Char} {more : List (List Char)} :
    mark ∈ (mark :: gap).intercalate (piece :: next :: more) := by
  rw [List.intercalate_cons_cons, List.append_assoc]
  exact List.mem_append_right _ List.mem_cons_self

/-- Pieces of text that do not hold the mark at which their separator begins are found again. -/
theorem eq_of_intercalate_eq {mark : Char} {gap : List Char} {first second : List (List Char)}
    (some : first ≠ []) (some' : second ≠ [])
    (without : ∀ piece ∈ first, mark ∉ piece) (without' : ∀ piece ∈ second, mark ∉ piece)
    (same : (mark :: gap).intercalate first = (mark :: gap).intercalate second) :
    first = second := by
  induction first generalizing second with
  | nil => exact absurd rfl some
  | cons piece more inductionHypothesis =>
    cases second with
    | nil => exact absurd rfl some'
    | cons piece' more' =>
      obtain ⟨free, rest⟩ := List.forall_mem_cons.mp without
      obtain ⟨free', rest'⟩ := List.forall_mem_cons.mp without'
      -- Where one list goes on and the other does not, the single piece would hold the mark.
      cases more with
      | nil =>
        rw [List.intercalate_singleton] at same
        cases more' with
        | nil => rw [same, List.intercalate_singleton]
        | cons next' more' => exact absurd (same ▸ mark_mem_intercalate) free
      | cons next more =>
        cases more' with
        | nil =>
          rw [List.intercalate_singleton] at same
          exact absurd (same ▸ mark_mem_intercalate) free'
        | cons next' more' =>
          rw [List.intercalate_cons_cons, List.intercalate_cons_cons, List.append_assoc,
            List.append_assoc, List.cons_append, List.cons_append] at same
          obtain ⟨head, tail⟩ := Text.eq_of_append_mark free free' same
          rw [head, inductionHypothesis (List.cons_ne_nil _ _) (List.cons_ne_nil _ _) rest rest'
            (List.append_cancel_left tail)]

/-- A mnemonic and the operands behind it. -/
def assemblyText (mnemonic : String) (operands : List String) : String :=
  mnemonic ++ " " ++ String.intercalate ", " operands

theorem assemblyText_pair (mnemonic first second : String) :
    assemblyText mnemonic [first, second] = mnemonic ++ " " ++ first ++ ", " ++ second := by
  simp only [assemblyText, String.intercalate_cons_cons, String.intercalate_singleton,
    String.append_assoc]

theorem assemblyText_triple (mnemonic first second third : String) :
    assemblyText mnemonic [first, second, third] =
      mnemonic ++ " " ++ first ++ ", " ++ second ++ ", " ++ third := by
  simp only [assemblyText, String.intercalate_cons_cons, String.intercalate_singleton,
    String.append_assoc]

theorem toList_assemblyText (mnemonic : String) (operands : List String) :
    (assemblyText mnemonic operands).toList =
      mnemonic.toList ++ ' ' :: [',', ' '].intercalate (operands.map String.toList) := by
  rw [assemblyText, String.toList_append, String.toList_append, String.toList_intercalate,
    List.append_assoc]
  rfl

/-- Text falls apart into the mnemonic and the operands from which it was put together. -/
theorem eq_of_assemblyText_eq {mnemonic mnemonic' : String} {operands operands' : List String}
    (word : ' ' ∉ mnemonic.toList) (word' : ' ' ∉ mnemonic'.toList)
    (some : operands ≠ []) (some' : operands' ≠ [])
    (without : ∀ operand ∈ operands, ',' ∉ operand.toList)
    (without' : ∀ operand ∈ operands', ',' ∉ operand.toList)
    (same : assemblyText mnemonic operands = assemblyText mnemonic' operands') :
    mnemonic = mnemonic' ∧ operands = operands' := by
  have symbols := congrArg String.toList same
  rw [toList_assemblyText, toList_assemblyText] at symbols
  obtain ⟨head, tail⟩ := Text.eq_of_append_mark word word' symbols
  have pieces := eq_of_intercalate_eq (mt List.map_eq_nil_iff.mp some)
    (mt List.map_eq_nil_iff.mp some') (List.forall_mem_map.mpr without)
    (List.forall_mem_map.mpr without') tail
  exact ⟨String.toList_injective head,
    List.map_injective_iff.mpr (fun _ _ => String.toList_injective) pieces⟩

/-- Text with operands is not what is written for an instruction without operation. -/
theorem assemblyText_ne_unknownText (mnemonic : String) (operands : List String) :
    assemblyText mnemonic operands ≠ unknownText := by
  intro same
  have blank : ' ' ∈ (assemblyText mnemonic operands).toList := by
    rw [toList_assemblyText]
    exact List.mem_append_cons_self
  rw [same] at blank
  exact absurd blank (by decide)

/-! ### Mnemonics -/

namespace Operation

theorem nodup_mnemonics : (all.map mnemonic).Nodup := by decide +kernel

/-- No two operations have the same mnemonic. -/
theorem mnemonic_injective : Function.Injective mnemonic := fun first second same =>
  List.inj_on_of_nodup_map nodup_mnemonics (mem_all first) (mem_all second) same

theorem blank_not_mem_mnemonic (operation : Operation) : ' ' ∉ operation.mnemonic.toList := by
  have words : ∀ operation ∈ all, ' ' ∉ operation.mnemonic.toList := by decide +kernel
  exact words operation (mem_all operation)

end Operation

/-! ### Operands -/

/-- An operand that text shows, before it is spelled. -/
inductive ShownOperand where
  | register (index : RegisterIndex)
  /-- An immediate as an unsigned number of 64 bits. -/
  | immediate (value : UInt64)

namespace ShownOperand

/-- The spelling of canonical text: registers by number. -/
def numbered : ShownOperand → String
  | register index => "x" ++ index.val.repr
  | immediate value => Text.hexLiteral value.toNat

theorem toList_numbered_register (index : RegisterIndex) :
    (register index).numbered.toList = 'x' :: Nat.toDigits 10 index.val := by
  rw [numbered, String.toList_append, Nat.toList_repr]
  rfl

theorem toList_numbered_immediate (value : UInt64) :
    (immediate value).numbered.toList = '0' :: 'x' :: Text.hexDigits value.toNat :=
  Text.toList_hexLiteral value.toNat

theorem comma_not_mem_numbered (operand : ShownOperand) : ',' ∉ operand.numbered.toList := by
  cases operand with
  | register index =>
    rw [toList_numbered_register, List.mem_cons, not_or]
    refine ⟨by decide, fun digit => ?_⟩
    have decimal := Nat.isDigit_of_mem_toDigits (by decide) (by decide) digit
    exact absurd decimal (by decide)
  | immediate value =>
    rw [toList_numbered_immediate, List.mem_cons, List.mem_cons, not_or, not_or]
    exact ⟨by decide, by decide, Text.not_mem_hexDigits rfl _⟩

/-- The spelling tells registers from immediates, and says which register and which number. -/
theorem numbered_injective : Function.Injective numbered := by
  intro first second same
  have symbols := congrArg String.toList same
  cases first with
  | register index =>
    cases second with
    | register index' =>
      rw [toList_numbered_register, toList_numbered_register] at symbols
      have digits := (List.cons.inj symbols).2
      rw [← Nat.toList_repr, ← Nat.toList_repr] at digits
      rw [Fin.ext (Nat.repr_inj.mp (String.toList_injective digits))]
    | immediate value =>
      rw [toList_numbered_register, toList_numbered_immediate] at symbols
      exact absurd (List.cons.inj symbols).1 (by decide)
  | immediate value =>
    cases second with
    | register index =>
      rw [toList_numbered_register, toList_numbered_immediate] at symbols
      exact absurd (List.cons.inj symbols).1 (by decide)
    | immediate value' =>
      rw [UInt64.toNat_inj.mp (Text.hexLiteral_injective same)]

end ShownOperand

namespace Instruction

/-- What text shows of a slot, by what the slot is used for. -/
def shownSlot? (instruction : Instruction) (slot : Slot) : SlotUse → Option ShownOperand
  | .register => some (.register (instruction.register slot))
  | .immediate => some (.immediate (instruction.immediate slot).toUInt64)
  | .unused => none

/-- The operands that text shows of an instruction under a format, in their order. -/
def shown (instruction : Instruction) (format : Format) : List ShownOperand :=
  [Slot.first, .second, .third].filterMap fun slot =>
    instruction.shownSlot? slot (format.use slot)

theorem shown_ne_nil (instruction : Instruction) (format : Format) :
    instruction.shown format ≠ [] := by
  cases format <;> exact List.cons_ne_nil _ _

/-- The canonical text of an instruction with an operation and a format. -/
theorem text_eq {instruction : Instruction} {format : Format}
    (known : instruction.isKnown = true) (recorded : instruction.format? = some format) :
    instruction.text =
      assemblyText instruction.operation.mnemonic
        ((instruction.shown format).map ShownOperand.numbered) := by
  unfold text
  rw [if_pos known]
  simp only [recorded]
  cases format with
  | r | i | s | b => exact (assemblyText_triple _ _ _ _).symm
  | u | j => exact (assemblyText_pair _ _ _).symm

/-- Without an operation there is nothing to show. -/
theorem text_of_unknown {instruction : Instruction} (unknown : instruction.isKnown = false) :
    instruction.text = unknownText := by
  unfold text
  rw [unknown]
  rfl

theorem text_ne_unknownText {instruction : Instruction} {format : Format}
    (known : instruction.isKnown = true) (recorded : instruction.format? = some format) :
    instruction.text ≠ unknownText := by
  rw [text_eq known recorded]
  exact assemblyText_ne_unknownText _ _

section

variable {first second : Instruction} {format format' : Format}

/-- Text says what the operation is and which operands are shown. -/
theorem eq_of_text_eq (known : first.isKnown = true) (known' : second.isKnown = true)
    (recorded : first.format? = some format) (recorded' : second.format? = some format')
    (same : first.text = second.text) :
    first.operation = second.operation ∧ first.shown format = second.shown format' := by
  have without (shown : List ShownOperand) :
      ∀ operand ∈ shown.map ShownOperand.numbered, ',' ∉ operand.toList :=
    List.forall_mem_map.mpr fun operand _ => operand.comma_not_mem_numbered
  rw [text_eq known recorded, text_eq known' recorded'] at same
  obtain ⟨mnemonics, operands⟩ := eq_of_assemblyText_eq
    (Operation.blank_not_mem_mnemonic _) (Operation.blank_not_mem_mnemonic _)
    (mt List.map_eq_nil_iff.mp (first.shown_ne_nil format))
    (mt List.map_eq_nil_iff.mp (second.shown_ne_nil format')) (without _) (without _) same
  exact ⟨Operation.mnemonic_injective mnemonics,
    List.map_injective_iff.mpr ShownOperand.numbered_injective operands⟩

/-- Slots that hold what they are used for are equal if they show the same. -/
theorem get_eq_of_shownSlot? {slot : Slot} {use : SlotUse} (holds : first.Holds slot use)
    (holds' : second.Holds slot use)
    (same : first.shownSlot? slot use = second.shownSlot? slot use) :
    first.operands.get slot = second.operands.get slot := by
  cases use with
  | register =>
    have index : first.register slot = second.register slot := by
      injection Option.some.inj same
    refine Int64.toInt_inj.mp ?_
    rw [← holds.2, ← holds'.2, index]
  | immediate =>
    have value : (first.immediate slot).toUInt64 = (second.immediate slot).toUInt64 := by
      injection Option.some.inj same
    have operand := congrArg UInt64.toInt64 value
    rw [Int64.toInt64_toUInt64, Int64.toInt64_toUInt64] at operand
    exact operand
  | unused => exact Eq.trans holds holds'.symm

/-- Under one format the same slots are shown, so lists that are equal are equal slot by slot. -/
theorem shownSlot?_eq_of_shown (same : first.shown format = second.shown format) (slot : Slot) :
    first.shownSlot? slot (format.use slot) = second.shownSlot? slot (format.use slot) := by
  cases format with
  | r | i | s | b =>
    obtain ⟨head, rest⟩ := List.cons.inj same
    obtain ⟨next, rest⟩ := List.cons.inj rest
    obtain ⟨last, -⟩ := List.cons.inj rest
    cases slot with
    | first => exact congrArg some head
    | second => exact congrArg some next
    | third => exact congrArg some last
  | u | j =>
    obtain ⟨head, rest⟩ := List.cons.inj same
    obtain ⟨last, -⟩ := List.cons.inj rest
    cases slot with
    | first => exact congrArg some head
    | second => exact congrArg some last
    | third => rfl

/-- Under one format the operands that are shown are all there is to the slots. -/
theorem operands_eq_of_shown (fills : first.Fills format) (fills' : second.Fills format)
    (same : first.shown format = second.shown format) : first.operands = second.operands := by
  have slots (slot : Slot) : first.operands.get slot = second.operands.get slot :=
    get_eq_of_shownSlot? (fills slot) (fills' slot) (shownSlot?_eq_of_shown same slot)
  show Operands.mk (first.operands.get .first) (first.operands.get .second)
    (first.operands.get .third) = second.operands
  rw [slots, slots, slots]
  rfl

end

end Instruction

/-! ### Words -/

/-- Words with the same operation are words of one opcode. -/
theorem opcode_eq_of_operation_eq {first second : Word} {opcode opcode' : Opcode}
    (known : (opcode.operation first).isKnown = true)
    (known' : (opcode'.operation second).isKnown = true)
    (same : opcode.operation first = opcode'.operation second) : opcode = opcode' := by
  have row := Opcode.fitting first opcode known
  have row' := Opcode.fitting second opcode' known'
  have layouts : some (opcode.layout first) = some (opcode'.layout second) :=
    row.symm.trans ((congrArg Operation.layout? same).trans row')
  rw [← Opcode.opcode_layout first opcode, Option.some.inj layouts, Opcode.opcode_layout]

section

variable {first second : Word} {address other : Int64}

theorem text_decodeWord_ne_unknownText (known : (decodeWord first address).isKnown = true) :
    (decodeWord first address).text ≠ unknownText := by
  obtain ⟨opcode, found, -⟩ := exists_opcode_of_isKnown known
  exact Instruction.text_ne_unknownText known (format?_decodeWord found address)

/-- Text says what a word decodes to. -/
theorem eq_of_text_decodeWord_eq (known : (decodeWord first address).isKnown = true)
    (known' : (decodeWord second other).isKnown = true)
    (same : (decodeWord first address).text = (decodeWord second other).text) :
    (decodeWord first address).operation = (decodeWord second other).operation ∧
      (decodeWord first address).operands = (decodeWord second other).operands := by
  obtain ⟨opcode, found, proper⟩ := exists_opcode_of_isKnown known
  obtain ⟨opcode', found', proper'⟩ := exists_opcode_of_isKnown known'
  obtain ⟨operations, shown⟩ := Instruction.eq_of_text_eq known known'
    (format?_decodeWord found address) (format?_decodeWord found' other) same
  have opcodes : opcode = opcode' := by
    rw [operation_decodeWord found, operation_decodeWord found'] at operations
    exact opcode_eq_of_operation_eq proper proper' operations
  subst opcodes
  exact ⟨operations, Instruction.operands_eq_of_shown
    (wellFormed_decodeWord found address proper).fills
    (wellFormed_decodeWord found' other proper').fills shown⟩

end

/-- Canonical text is lossless. The text of a standard word that is known is that of no other
standard word, at whatever addresses the two of them stand, and it is not the text that stands for
all words that are not known. -/
theorem text_decodeWord_eq_iff (first second : Word) (address other : Int64)
    (standard : first.isStandard) (standard' : second.isStandard)
    (known : (decodeWord first address).isKnown = true) :
    ((decodeWord first address).text = (decodeWord second other).text ↔ first = second) ∧
      (decodeWord first address).text ≠ unknownText := by
  have readable := text_decodeWord_ne_unknownText known
  refine ⟨⟨fun same => ?_, ?_⟩, readable⟩
  · cases known' : (decodeWord second other).isKnown with
    | false => exact absurd (same.trans (Instruction.text_of_unknown known')) readable
    | true =>
      obtain ⟨operations, operands⟩ := eq_of_text_decodeWord_eq known known' same
      have encoded := (encode?_decodeWord standard known).2
      rw [operations, operands, (encode?_decodeWord standard' known').2] at encoded
      exact (Option.some.inj encoded).symm
  · rintro rfl
    rw [decodeWord_moved first address other]
    rfl

/-- A word with a mnemonic that begins another, and with the least immediate. Its text at another
address is the same, and the unsigned comparison has another text. -/
theorem text_decodeWord_eq_iff_slti :
    let word : Word := 0x8000a093
    let unsigned : Word := 0x8000b093
    (word.isStandard ∧ unsigned.isStandard ∧ (decodeWord word 0).isKnown = true) ∧
      (decodeWord word 0).text = "slti x1, x1, 0xfffffffffffff800" ∧
      (decodeWord word 0).text = (decodeWord word 64).text ∧
      (decodeWord word 0).text ≠ (decodeWord unsigned 64).text := by
  intro word unsigned
  have standard : word.isStandard := by decide
  have standard' : unsigned.isStandard := by decide
  have known : (decodeWord word 0).isKnown = true := by decide +kernel
  have same := text_decodeWord_eq_iff word word 0 64 standard standard known
  have differ := text_decodeWord_eq_iff word unsigned 0 64 standard standard' known
  exact ⟨⟨standard, standard', known⟩, by decide +kernel, same.1.mpr rfl,
    fun equal => absurd (differ.1.mp equal) (by decide)⟩

end Hart
