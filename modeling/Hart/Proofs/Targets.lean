/-
This file proves that the target which a listing shows is where the machine goes. Both work it out,
each in its own way. The listing adds an unsigned address and the operand that the format calls an
offset; the machine adds the offset of the operation to a program counter with a sign. They agree
for every offset and every address, also where the sum leaves one end of the address space and comes
back at the other.

A branch that is not taken goes to the word behind it, which the machine finds by the size of the
instruction and which the listing does not show.
-/

import Hart.Proofs.Spelling

namespace Hart

/-! ### Where a direct transfer goes -/

/-- Whether a direct transfer goes to its target, by what its first two slots read as registers: a
branch does if its condition holds, signed comparisons being those of two's complement, and a direct
jump always does. -/
def Operation.Taken (first second : UInt64) : Operation → Prop
  | .beq => first = second
  | .bne => first ≠ second
  | .blt => first.toInt64.toInt < second.toInt64.toInt
  | .bge => second.toInt64.toInt ≤ first.toInt64.toInt
  | .bltu => first.toNat < second.toNat
  | .bgeu => second.toNat ≤ first.toNat
  | .jal => True
  | _ => False

section

variable {operation : Operation} {layout : Layout}

theorem taken_iff_of_action {condition : UInt64 → UInt64 → Bool}
    (executes : operation.action? = some (.branch condition)) (first second : UInt64) :
    operation.Taken first second ↔ condition first second = true := by
  have signed : Arithmetic.lessSigned first second = true ↔
      first.toInt64.toInt < second.toInt64.toInt :=
    decide_eq_true_iff.trans Int64.lt_iff_toInt_lt
  have unsigned : Arithmetic.lessUnsigned first second = true ↔ first.toNat < second.toNat :=
    decide_eq_true_iff.trans UInt64.lt_iff_toNat_lt
  cases operation <;> cases executes
  case beq => exact beq_iff_eq.symm
  case bne => exact bne_iff_ne.symm
  case blt => exact signed.symm
  case bge => rw [Operation.Taken, Bool.not_eq_true', ← Bool.not_eq_true, signed, not_lt]
  case bltu => exact unsigned.symm
  case bgeu => rw [Operation.Taken, Bool.not_eq_true', ← Bool.not_eq_true, unsigned, not_lt]

/-- The words of format B are branches, and those of format J direct jumps. -/
theorem exists_branch_of_row (row : operation.layout? = some layout)
    (format : layout.opcode.format = .b) :
    ∃ condition, operation.action? = some (.branch condition) := by
  cases operation <;> cases row <;> first | exact ⟨_, rfl⟩ | cases format

theorem eq_jal_of_row (row : operation.layout? = some layout)
    (format : layout.opcode.format = .j) : operation = .jal := by
  cases operation <;> cases row <;> first | rfl | cases format

end

namespace Machine

variable {instruction : Instruction} {format : Format}

/-- A well-formed branch completes and leads to its target or to the word behind it. -/
theorem execute_of_branch (machine : Machine) {condition : UInt64 → UInt64 → Bool}
    (wellFormed : instruction.WellFormed format)
    (executes : instruction.operation.action? = some (.branch condition)) :
    (machine.execute instruction).1 = .continued ∧
      (machine.execute instruction).2.pc =
        if condition (machine.registerValue (instruction.register .first))
          (machine.registerValue (instruction.register .second))
        then machine.pc + instruction.immediate .third else machine.pc + 4 := by
  have works := effect?_of_branch machine.clearZero executes
  have following : machine.clearZero.following instruction = machine.pc + 4 := by
    unfold following
    rw [wellFormed.size]
    rfl
  refine ⟨by rw [execute_of_ok works], ?_⟩
  rw [(pc_execute_of_wellFormed wellFormed works).2, operand_clearZero, operand_clearZero,
    following]
  rfl

/-- A well-formed direct jump completes and leads to its target. -/
theorem execute_of_jal (machine : Machine) (wellFormed : instruction.WellFormed format)
    (jumps : instruction.operation = .jal) :
    (machine.execute instruction).1 = .continued ∧
      (machine.execute instruction).2.pc = machine.pc + instruction.immediate .second := by
  have executes : instruction.operation.action? = some .jump := by rw [jumps]; rfl
  have works := effect?_of_action machine.clearZero executes
  exact ⟨by rw [execute_of_ok works], (pc_execute_of_wellFormed wellFormed works).2⟩

/-- Adding an offset to a program counter is adding it to the address that the program counter
stands for. -/
theorem toUInt64_add_offset {machine : Machine} {address : UInt64}
    (stands : machine.pc = address.toInt64) (offset : Int64) :
    (machine.pc + offset).toUInt64 = address + offset.toUInt64 := by
  rw [stands, Int64.toUInt64_add, UInt64.toUInt64_toInt64]

end Machine

namespace Listing

/-! ### Where an entry leads -/

namespace Entry

variable {entry : Entry} {format : Format} {target : UInt64}

theorem isSome_target?_iff (recorded : entry.instruction.format? = some format) :
    entry.target?.isSome = true ↔ format = .b ∨ format = .j := by
  rw [target?_of_format recorded]
  cases format <;> simp [targetUnder?]

/-- Where a known entry leads somewhere, its text ends with the target. -/
theorem exists_front_of_target? (known : entry.instruction.isKnown = true)
    (recorded : entry.instruction.format? = some format) (leads : entry.target? = some target) :
    ∃ front, entry.text = front ++ ", " ++ Text.hexLiteral target.toNat := by
  unfold text
  dsimp only
  rw [target?_of_format recorded] at leads ⊢
  rw [if_pos known, recorded]
  cases format with
  | b | j =>
    cases leads
    exact ⟨_, rfl⟩
  | r | i | s | u => cases leads

end Entry

section

variable {code : ByteArray} {base : UInt64} {entry : Entry} {target : UInt64}

/-- A known entry that leads somewhere is completed by every machine that stands at its address, and
the machine goes to the target or to the word behind the entry. -/
theorem execute_of_target? (member : entry ∈ disassemble code base)
    (known : entry.instruction.isKnown = true) (leads : entry.target? = some target)
    {machine : Machine} (stands : machine.pc = entry.address.toInt64) :
    let first := machine.registerValue (entry.instruction.register .first)
    let second := machine.registerValue (entry.instruction.register .second)
    (machine.execute entry.instruction).1 = .continued ∧
      (entry.instruction.operation.Taken first second →
        (machine.execute entry.instruction).2.pc.toUInt64 = target) ∧
      (¬entry.instruction.operation.Taken first second →
        (machine.execute entry.instruction).2.pc.toUInt64 = entry.address + 4) := by
  intro first second
  obtain ⟨layout, row, recorded, wellFormed⟩ := exists_row_of_mem member known
  rw [Entry.target?_of_format recorded] at leads
  cases format : layout.opcode.format with
  | b =>
    rw [format] at leads
    obtain rfl := Option.some.inj leads
    obtain ⟨condition, executes⟩ := exists_branch_of_row row format
    obtain ⟨completed, pc⟩ := machine.execute_of_branch wellFormed executes
    have taken := taken_iff_of_action executes first second
    refine ⟨completed, fun goes => ?_, fun stays => ?_⟩
    · rw [pc, if_pos (taken.mp goes)]
      exact Machine.toUInt64_add_offset stands _
    · rw [pc, if_neg (mt taken.mpr stays)]
      exact Machine.toUInt64_add_offset stands 4
  | j =>
    rw [format] at leads
    obtain rfl := Option.some.inj leads
    have jumps := eq_jal_of_row row format
    obtain ⟨completed, pc⟩ := machine.execute_of_jal wellFormed jumps
    refine ⟨completed, fun _ => ?_, fun stays => ?_⟩
    · rw [pc]
      exact Machine.toUInt64_add_offset stands _
    · rw [jumps] at stays
      exact absurd trivial stays
  | r | i | s | u =>
    rw [format] at leads
    cases leads

end

/-- Where a listing says that a branch or a jump leads is where the machine goes. Of the known
entries of a listing exactly the branches and the direct jumps have a target, and the line of such
an entry ends with it. Every machine that stands at the address of the entry completes its
instruction. If a branch is taken, and for a direct jump in any case, the program counter is then
the target, and otherwise it is four bytes behind the address, modulo the size of the address space.
-/
theorem listed_targets_are_reached (code : ByteArray) (base : UInt64) (entry : Entry)
    (member : entry ∈ disassemble code base) (known : entry.instruction.isKnown = true) :
    (entry.target?.isSome = true ↔
        entry.instruction.operation ∈ Operation.branches ∨ entry.instruction.operation = .jal) ∧
      ∀ target, entry.target? = some target →
        (∃ front, entry.line = front ++ ", " ++ Text.hexLiteral target.toNat) ∧
          ∀ machine : Machine, machine.pc = entry.address.toInt64 →
            let taken := entry.instruction.operation.Taken
              (machine.registerValue (entry.instruction.register .first))
              (machine.registerValue (entry.instruction.register .second))
            (machine.execute entry.instruction).1 = .continued ∧
              (taken → (machine.execute entry.instruction).2.pc.toUInt64 = target) ∧
              (¬taken → (machine.execute entry.instruction).2.pc.toUInt64.toNat =
                (entry.address.toNat + 4) % 2 ^ 64) := by
  obtain ⟨layout, row, recorded, -⟩ := exists_row_of_mem member known
  refine ⟨?_, fun target leads => ⟨?_, fun machine stands => ?_⟩⟩
  · rw [Entry.isSome_target?_iff recorded, ← directTransfers_iff_of_row row, or_comm]
    exact List.mem_cons
  · obtain ⟨front, text⟩ := Entry.exists_front_of_target? known recorded leads
    refine ⟨entry.lead ++ front, ?_⟩
    rw [Entry.line_eq, text, String.append_assoc, String.append_assoc, String.append_assoc]
  · intro taken
    obtain ⟨completed, goes, stays⟩ := execute_of_target? member known leads stands
    refine ⟨completed, goes, fun other => ?_⟩
    rw [stays other]
    exact UInt64.toNat_add _ _

/-- A branch backwards over the start of the address space: it is taken where the signed comparison
holds, and the machine goes to the other end; with both registers zero it goes on. -/
theorem listed_targets_are_reached_wrapping :
    let code : ByteArray := ⟨#[0xe3, 0xc6, 0x62, 0xfc]⟩
    let base : UInt64 := 0x10
    let entry := entryAt code base 0
    let still : Machine := { pc := 0x10, memory := ⟨#[]⟩ }
    let ready := still.pokeRegister 5 0x8000000000000000
    (entry ∈ disassemble code base ∧ entry.instruction.isKnown = true ∧
        entry.target? = some 0xffffffffffffffdc ∧ still.pc = entry.address.toInt64 ∧
        ready.pc = entry.address.toInt64) ∧
      entry.line = "      10: fc62c6e3  blt t0, t1, 0xffffffffffffffdc" ∧
      (ready.execute entry.instruction).2.pc.toUInt64 = 0xffffffffffffffdc ∧
      (still.execute entry.instruction).2.pc.toUInt64.toNat = 0x14 := by
  intro code base entry still ready
  have member : entry ∈ disassemble code base := by decide +kernel
  have known : entry.instruction.isKnown = true := by decide +kernel
  have leads : entry.target? = some 0xffffffffffffffdc := by decide +kernel
  have stands : still.pc = entry.address.toInt64 := by decide +kernel
  have operation : entry.instruction.operation = .blt := by decide +kernel
  obtain ⟨-, reached⟩ := listed_targets_are_reached code base entry member known
  obtain ⟨-, goes⟩ := reached _ leads
  have taken : entry.instruction.operation.Taken
      (ready.registerValue (entry.instruction.register .first))
      (ready.registerValue (entry.instruction.register .second)) := by
    rw [operation]
    show (UInt64.toInt64 _).toInt < (UInt64.toInt64 _).toInt
    decide +kernel
  have untaken : ¬entry.instruction.operation.Taken
      (still.registerValue (entry.instruction.register .first))
      (still.registerValue (entry.instruction.register .second)) := by
    rw [operation]
    show ¬(UInt64.toInt64 _).toInt < (UInt64.toInt64 _).toInt
    decide +kernel
  exact ⟨⟨member, known, leads, stands, stands⟩, by decide +kernel, (goes ready stands).2.1 taken,
    ((goes still stands).2.2 untaken).trans (by decide +kernel)⟩

end Listing

end Hart
