/-
This file proves that a listing and canonical text show the same instruction. The two are written by
two functions, and each of them goes through the formats on its own. Both put down the mnemonic and
the same operands in the same order; what differs is how an operand is spelled. Canonical text
numbers the registers and leaves an immediate as it is. The listing calls registers by name and says
where a branch or a direct jump leads.

The listing looks at the format to tell these from the rest. An instruction that is not known may
keep the format of its opcode, so it matters that the listing asks first whether there is anything
to show. For entries of a listing the format is that of the operation.
-/

import Hart.Proofs.Rendering
import Hart.Proofs.Walk

namespace Hart

/-- The branches and the direct jump: what says where it leads by an offset from its own address. -/
def Operation.directTransfers : List Operation :=
  jal :: branches

/-- The formats of direct transfers are used for nothing else. -/
theorem directTransfers_iff_of_row {operation : Operation} {layout : Layout}
    (row : operation.layout? = some layout) :
    operation ∈ Operation.directTransfers ↔
      layout.opcode.format = .b ∨ layout.opcode.format = .j := by
  cases operation <;> cases row <;> decide

/-- The spelling of a listing: registers by name, and numbers as the listing shows them. -/
def ShownOperand.named (number : UInt64 → Nat) : ShownOperand → String
  | register index => registerNames.get index
  | immediate value => Text.hexLiteral (number value)

namespace Listing

namespace Entry

/-! ### Lines -/

/-- What a line has in front of its text: the address and the bytes as one number. -/
def lead (entry : Entry) : String :=
  Text.hexPadded ' ' 8 entry.address.toNat ++ ": "
    ++ Text.hexPadded '0' (2 * entry.bytes.length) entry.raw ++ "  "

theorem line_eq (entry : Entry) : entry.line = entry.lead ++ entry.text := rfl

/-! ### Text -/

/-- The number that a listing shows for an immediate: where a direct transfer leads, modulo the size
of the address space, and the immediate itself for every other operation. -/
def shownNumber (entry : Entry) (value : UInt64) : Nat :=
  if entry.instruction.operation ∈ Operation.directTransfers then
    (entry.address.toNat + value.toNat) % 2 ^ 64
  else value.toNat

theorem text_of_unknown {entry : Entry} (unknown : entry.instruction.isKnown = false) :
    entry.text = unknownText :=
  if_neg fun known => Bool.false_ne_true (unknown.symm.trans known)

/-- Where an entry leads under a format. -/
def targetUnder? (entry : Entry) : Format → Option UInt64
  | .b => some (entry.address + (entry.instruction.immediate .third).toUInt64)
  | .j => some (entry.address + (entry.instruction.immediate .second).toUInt64)
  | .r | .i | .s | .u => none

section

variable {entry : Entry} {format : Format}

theorem target?_of_format (recorded : entry.instruction.format? = some format) :
    entry.target? = entry.targetUnder? format := by
  unfold target?
  rw [recorded]
  cases format <;> rfl

/-- The text of an entry whose instruction has an operation and a format, provided that the format
is that of a direct transfer if and only if the operation is one. -/
theorem text_eq (known : entry.instruction.isKnown = true)
    (recorded : entry.instruction.format? = some format)
    (direct : entry.instruction.operation ∈ Operation.directTransfers ↔
      format = .b ∨ format = .j) :
    entry.text =
      assemblyText entry.instruction.operation.mnemonic
        ((entry.instruction.shown format).map (ShownOperand.named entry.shownNumber)) := by
  have resolved (transfer : format = .b ∨ format = .j) (value : UInt64) :
      (entry.address + value).toNat = entry.shownNumber value :=
    (UInt64.toNat_add _ _).trans (if_pos (direct.mpr transfer)).symm
  have plain (other : ¬(format = .b ∨ format = .j)) (value : UInt64) :
      value.toNat = entry.shownNumber value :=
    (if_neg fun transfer => other (direct.mp transfer)).symm
  unfold text
  dsimp only
  rw [if_pos known, target?_of_format recorded, recorded]
  cases format with
  | r => exact (assemblyText_triple _ _ _ _).symm
  | i | s =>
    dsimp only [Instruction.immediateText]
    rw [plain (by decide)]
    exact (assemblyText_triple _ _ _ _).symm
  | b =>
    dsimp only [targetUnder?]
    rw [resolved (by decide)]
    exact (assemblyText_triple _ _ _ _).symm
  | u =>
    dsimp only [Instruction.immediateText]
    rw [plain (by decide)]
    exact (assemblyText_pair _ _ _).symm
  | j =>
    dsimp only [targetUnder?]
    rw [resolved (by decide)]
    exact (assemblyText_pair _ _ _).symm

end

end Entry

/-! ### Entries of a listing -/

section

variable {code : ByteArray} {base : UInt64} {entry : Entry}

/-- A known entry of a listing has a row in the assembler's table, and it is well-formed under the
format of the opcode that stands there. -/
theorem exists_row_of_mem (member : entry ∈ disassemble code base)
    (known : entry.instruction.isKnown = true) :
    ∃ layout, entry.instruction.operation.layout? = some layout ∧
      entry.instruction.format? = some layout.opcode.format ∧
      entry.instruction.WellFormed layout.opcode.format := by
  obtain ⟨position, -, rfl⟩ := exists_position_of_mem member
  obtain ⟨opcode, decoded, found, proper⟩ :=
    (parcel_decode code (Int64.ofNat position)).exists_opcode known
  -- The entry has its own address in place of the offset that was decoded at.
  rw [instruction_entryAt, decoded, ← decodeWord_moved]
  obtain ⟨layout, row, rfl⟩ :=
    exists_row_decodeWord found proper (entryAt code base position).address.toInt64
  exact ⟨layout, row, format?_decodeWord found _, wellFormed_decodeWord found _ proper⟩

end

/-- A listing spells the operands of canonical text in another way and changes nothing else. The
text of an entry, which its line has behind the address and the bytes, is the text for what is not
known exactly where canonical text is. Otherwise both texts are the mnemonic and the operands of the
instruction in the same order with the same separators. Where canonical text has a register by
number, the listing has its name. Where it has an immediate, the listing has the sum of the address
and the immediate, modulo the size of the address space, for a branch and for a direct jump, and the
immediate for everything else. -/
theorem listing_respells_text (code : ByteArray) (base : UInt64) (entry : Entry)
    (member : entry ∈ disassemble code base) :
    entry.line = entry.lead ++ entry.text ∧
      (entry.text = unknownText ↔ entry.instruction.text = unknownText) ∧
      (entry.instruction.text ≠ unknownText →
        ∃ format, entry.instruction.format? = some format ∧
          entry.instruction.text =
            assemblyText entry.instruction.operation.mnemonic
              ((entry.instruction.shown format).map ShownOperand.numbered) ∧
          entry.text =
            assemblyText entry.instruction.operation.mnemonic
              ((entry.instruction.shown format).map (ShownOperand.named entry.shownNumber))) := by
  refine ⟨entry.line_eq, ?_⟩
  cases known : entry.instruction.isKnown with
  | false =>
    have nothing := Instruction.text_of_unknown known
    exact ⟨iff_of_true (Entry.text_of_unknown known) nothing, fun shown => absurd nothing shown⟩
  | true =>
    obtain ⟨layout, row, recorded, -⟩ := exists_row_of_mem member known
    have listed := Entry.text_eq known recorded (directTransfers_iff_of_row row)
    refine ⟨iff_of_false ?_ (Instruction.text_ne_unknownText known recorded),
      fun _ => ⟨_, recorded, Instruction.text_eq known recorded, listed⟩⟩
    rw [listed]
    exact assemblyText_ne_unknownText _ _

/-- A branch backwards over the start of the address space. -/
theorem listing_respells_text_branch :
    let code : ByteArray := ⟨#[0xe3, 0xc6, 0x62, 0xfc]⟩
    let base : UInt64 := 0x10
    let entry := entryAt code base 0
    (entry ∈ disassemble code base ∧ entry.instruction.text ≠ unknownText) ∧
      entry.instruction.text = "blt x5, x6, 0xffffffffffffffcc" ∧
      entry.line = "      10: fc62c6e3  blt t0, t1, 0xffffffffffffffdc" ∧
      entry.text =
        assemblyText entry.instruction.operation.mnemonic
          ((entry.instruction.shown .b).map (ShownOperand.named entry.shownNumber)) := by
  intro code base entry
  have member : entry ∈ disassemble code base := by decide +kernel
  have shown : entry.instruction.text ≠ unknownText := by decide +kernel
  have recorded : entry.instruction.format? = some .b := by decide +kernel
  obtain ⟨-, -, respelled⟩ := listing_respells_text code base entry member
  obtain ⟨format, recorded', -, text⟩ := respelled shown
  obtain rfl : Format.b = format := Option.some.inj (recorded.symm.trans recorded')
  exact ⟨⟨member, shown⟩, by decide +kernel, by decide +kernel, text⟩

end Listing

end Hart
