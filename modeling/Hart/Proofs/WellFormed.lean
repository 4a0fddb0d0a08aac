/-
This file says what the instructions look like that decoding finds. Whatever is in a buffer and
wherever one looks, an instruction records where it was found and how many bytes it takes, and it is
never without an operation. One that is known follows a single format: its slots hold registers that
exist, an immediate in the range of its operation, or zero.

It also relates the two places that have a say in where execution goes on. Decoding marks control
transfers by a flag, and executing an operation may set the program counter. Where the two disagree,
as they may for an instruction built by hand, a step moves the program counter twice or not at all.
For decoded instructions they agree, so a step that is completed moves it exactly once.
-/

import Hart.Proofs.Execution
import Hart.Proofs.Inverse
import Hart.Proofs.Parcels

namespace Hart

/-! ### Slots -/

/-- What a slot is used for. -/
inductive SlotUse where
  | register | immediate | unused

/-- What a format uses a slot for. -/
def Format.use : Format → Slot → SlotUse
  | r, _ => .register
  | i, .third | s, .third | b, .third => .immediate
  | i, _ | s, _ | b, _ => .register
  | u, .first | j, .first => .register
  | u, .second | j, .second => .immediate
  | u, .third | j, .third => .unused

/-- The multiples of a step from a least number to a greatest. -/
structure ImmediateRange where
  least : Int
  greatest : Int
  step : Int

/-- Whether an operand is a number of the range. -/
def ImmediateRange.Contains (range : ImmediateRange) (operand : Int64) : Prop :=
  Within range.least range.greatest operand ∧ operand.toInt % range.step = 0

/-- The immediates that an operation may have. Operations on registers alone have none, and the
range given for them constrains nothing. -/
def Operation.immediateRange : Operation → ImmediateRange
  | slli | srli | srai => ⟨0, 63, 1⟩
  | slliw | srliw | sraiw => ⟨0, 31, 1⟩
  | beq | bne | blt | bge | bltu | bgeu => ⟨-4096, 4094, 2⟩
  | jal => ⟨-2 ^ 20, 2 ^ 20 - 2, 2⟩
  | lui => ⟨-2 ^ 19, 2 ^ 19 - 1, 1⟩
  | auipc => ⟨-2 ^ 31, 2 ^ 31 - 1, 4096⟩
  | _ => ⟨-2048, 2047, 1⟩

/-- The operations that set the program counter themselves. -/
def Operation.transfers : List Operation :=
  [beq, bne, blt, bge, bltu, bgeu, jal, jalr]

namespace Instruction

/-- Whether a slot holds what it is used for. The register that a slot names is then the number in
the slot itself. -/
def Holds (instruction : Instruction) (slot : Slot) : SlotUse → Prop
  | .register =>
    Within 0 31 (instruction.operands.get slot) ∧
      (instruction.register slot).val = (instruction.operands.get slot).toInt
  | .immediate => instruction.operation.immediateRange.Contains (instruction.operands.get slot)
  | .unused => instruction.operands.get slot = 0

/-- Whether each slot holds what the format uses it for. -/
def Fills (instruction : Instruction) (format : Format) : Prop :=
  ∀ slot, instruction.Holds slot (format.use slot)

/-- What a known instruction looks like under its format. -/
structure WellFormed (instruction : Instruction) (format : Format) : Prop where
  size : instruction.size = 4
  standard : instruction.isCompressed = false
  /-- The flag of the format is set, and that of no other. -/
  flag_iff : ∀ other : Format, instruction.flags.contains other.flag = true ↔ other = format
  operandCount : instruction.operandCount = format.operandCount
  fills : instruction.Fills format
  isJump_iff : instruction.isJump = true ↔ instruction.operation ∈ Operation.transfers

variable {instruction : Instruction} {slot : Slot}

theorem fills_of_slots {format : Format}
    (first : instruction.Holds .first (format.use .first))
    (second : instruction.Holds .second (format.use .second))
    (third : instruction.Holds .third (format.use .third)) : instruction.Fills format := by
  intro slot
  cases slot with
  | first => exact first
  | second => exact second
  | third => exact third

/-- A slot that holds the number of a register names it. -/
theorem holds_register (fits : Within 0 31 (instruction.operands.get slot)) :
    instruction.Holds slot .register := by
  refine ⟨fits, ?_⟩
  have named := registerOperand_field fits
  rw [register_eq named.symm]
  conv_rhs => rw [← named]
  exact (toInt_ofNat_toNat (Word.field 5 (instruction.operands.get slot)) (by decide)).symm

theorem holds_multiple {least greatest step : Int}
    (range : instruction.operation.immediateRange = ⟨least, greatest, step⟩)
    (fits : Within least greatest (instruction.operands.get slot))
    (multiple : (instruction.operands.get slot).toInt % step = 0) :
    instruction.Holds slot .immediate := by
  unfold Holds
  rw [range]
  exact ⟨fits, multiple⟩

/-- Every number is a multiple of one. -/
theorem holds_immediate {least greatest : Int}
    (range : instruction.operation.immediateRange = ⟨least, greatest, 1⟩)
    (fits : Within least greatest (instruction.operands.get slot)) :
    instruction.Holds slot .immediate :=
  holds_multiple range fits (Int.emod_one _)

end Instruction

/-! ### The rows of the assembler's table -/

namespace Opcode

theorem contains_format_flag (opcode : Opcode) (other : Format) :
    opcode.flags.contains other.flag = true ↔ other = opcode.format := by
  cases opcode <;> cases other <;> decide

theorem contains_compressed (opcode : Opcode) : opcode.flags.contains .compressed = false := by
  cases opcode <;> decide

theorem opcode_layout (word : Word) (opcode : Opcode) : (opcode.layout word).opcode = opcode := by
  cases opcode with
  | opImm =>
    rw [layout_opImm]
    split <;> rfl
  | opImm32 =>
    rw [layout_opImm32]
    split <;> rfl
  | _ => rfl

end Opcode

/-- The immediates that fit a layout. -/
def Layout.immediateRange : Layout → ImmediateRange
  | shift _ _ => ⟨0, 63, 1⟩
  | wordShift _ _ => ⟨0, 31, 1⟩
  | branch _ => ⟨-4096, 4094, 2⟩
  | jump => ⟨-2 ^ 20, 2 ^ 20 - 2, 2⟩
  | loadUpper => ⟨-2 ^ 19, 2 ^ 19 - 1, 1⟩
  | addUpper => ⟨-2 ^ 31, 2 ^ 31 - 1, 4096⟩
  | registers _ _ _ | immediate _ _ | store _ | environment _ => ⟨-2048, 2047, 1⟩

section

variable {operation : Operation} {layout : Layout}

theorem immediateRange_of_row (row : operation.layout? = some layout) :
    operation.immediateRange = layout.immediateRange := by
  cases operation <;> cases row <;> rfl

theorem transfers_iff_of_row (row : operation.layout? = some layout) :
    layout.opcode.flags.contains .jump = true ↔ operation ∈ Operation.transfers := by
  cases operation <;> cases row <;> decide

theorem transfers_iff_of_action {action : Action} (executes : operation.action? = some action) :
    operation ∈ Operation.transfers ↔ action.kind = .branch ∨ action.kind = .link := by
  cases operation <;> cases executes <;> decide

end

namespace Instruction

variable {instruction : Instruction}

/-- Operands that fit the layout of an operation fill the slots of its format. -/
theorem fills_of_row {layout : Layout} (row : instruction.operation.layout? = some layout)
    (fits : layout.Admits instruction.operands) :
    instruction.Fills layout.opcode.format := by
  have range := immediateRange_of_row row
  have proper := Layout.proper_of_row row
  cases layout with
  | registers opcode funct3 funct7 =>
    obtain ⟨first, second, third⟩ := fits
    have format : opcode.format = .r := by
      obtain rfl | rfl := proper
      · rfl
      · rfl
    show instruction.Fills opcode.format
    rw [format]
    exact fills_of_slots (holds_register first) (holds_register second) (holds_register third)
  | immediate opcode funct3 =>
    obtain ⟨first, second, third⟩ := fits
    have format : opcode.format = .i := by
      obtain rfl | rfl | rfl | ⟨rfl | rfl, -⟩ := proper <;> rfl
    show instruction.Fills opcode.format
    rw [format]
    exact fills_of_slots (holds_register first) (holds_register second)
      (holds_immediate range third)
  | shift funct3 funct6 | wordShift funct3 funct7 | store funct3 =>
    obtain ⟨first, second, third⟩ := fits
    exact fills_of_slots (holds_register first) (holds_register second)
      (holds_immediate range third)
  | branch funct3 =>
    obtain ⟨first, second, third, even⟩ := fits
    exact fills_of_slots (holds_register first) (holds_register second)
      (holds_multiple range third even)
  | loadUpper =>
    obtain ⟨first, second, unused⟩ := fits
    exact fills_of_slots (holds_register first) (holds_immediate range second) unused
  | addUpper | jump =>
    obtain ⟨first, second, multiple, unused⟩ := fits
    exact fills_of_slots (holds_register first) (holds_multiple range second multiple) unused
  | environment code =>
    have none : Within 0 31 0 := ⟨by decide, by decide⟩
    have third : Within (-2048) 2047 (Word.signedOperand code) :=
      within_signedOperand code (by decide) (by decide) (by decide)
    refine fills_of_slots (holds_register ?_) (holds_register ?_) (holds_immediate range ?_)
    · rw [fits]
      exact none
    · rw [fits]
      exact none
    · rw [fits]
      exact third

end Instruction

/-! ### Decoding -/

theorem Operation.settled_ne_invalid (operation : Operation) : operation.settled ≠ .invalid := by
  cases operation <;> decide

theorem decodeWord_ne_invalid (word : Word) (address : Int64) :
    (decodeWord word address).operation ≠ .invalid := by
  cases found : word.opcode? with
  | none =>
    rw [decodeWord_of_opcode?_eq_none found]
    exact nofun
  | some opcode =>
    rw [operation_decodeWord found]
    exact Operation.settled_ne_invalid _

/-- A word that is known has an opcode. -/
theorem exists_opcode_of_isKnown {word : Word} {address : Int64}
    (known : (decodeWord word address).isKnown = true) :
    ∃ opcode, word.opcode? = some opcode ∧ (opcode.operation word).isKnown = true := by
  cases found : word.opcode? with
  | none =>
    rw [decodeWord_of_opcode?_eq_none found] at known
    cases known
  | some opcode =>
    rw [Instruction.isKnown, operation_decodeWord found] at known
    exact ⟨opcode, rfl, known⟩

/-- A word that is known has a row in the assembler's table, and its operands fit the layout that
stands there. -/
theorem row_decodeWord {word : Word} {opcode : Opcode} (found : word.opcode? = some opcode)
    (address : Int64) (known : (opcode.operation word).isKnown = true) :
    (decodeWord word address).operation.layout? = some (opcode.layout word) ∧
      (opcode.layout word).Admits (decodeWord word address).operands := by
  have row := Opcode.fitting word opcode known
  exact ⟨(congrArg Operation.layout? (operation_decodeWord found address)).trans row,
    (operands_decodeWord found address).symm ▸ admits_operands known⟩

/-- A word that is known is well-formed under the format of its opcode. -/
theorem wellFormed_decodeWord {word : Word} {opcode : Opcode} (found : word.opcode? = some opcode)
    (address : Int64) (known : (opcode.operation word).isKnown = true) :
    (decodeWord word address).WellFormed opcode.format := by
  obtain ⟨row, fits⟩ := row_decodeWord found address known
  have fills := Instruction.fills_of_row row fits
  have transfers := transfers_iff_of_row row
  rw [Opcode.opcode_layout] at fills transfers
  refine ⟨size_decodeWord word address, ?_, ?_, ?_, fills, ?_⟩
  · rw [decodeWord_of_opcode found]
    exact opcode.contains_compressed
  · rw [decodeWord_of_opcode found]
    exact opcode.contains_format_flag
  · rw [decodeWord_of_opcode found]
  · rw [isJump_decodeWord found]
    exact transfers

section

variable {buffer : ByteArray} {offset : Int64} {instruction : Instruction}

namespace Parcel

theorem address_eq (parcel : Parcel buffer offset instruction) :
    instruction.address = offset := by
  cases parcel with
  | outside | compressed | incomplete => rfl
  | whole => exact address_decodeWord _ _

theorem ne_invalid (parcel : Parcel buffer offset instruction) :
    instruction.operation ≠ .invalid := by
  cases parcel with
  | outside | compressed | incomplete => exact nofun
  | whole => exact decodeWord_ne_invalid _ _

/-- Of what may be found only whole words are known, and only where there is an opcode. -/
theorem exists_opcode (parcel : Parcel buffer offset instruction)
    (known : instruction.isKnown = true) :
    let word := wordAt buffer offset.toNatClampNeg
    ∃ opcode, instruction = decodeWord word offset ∧ word.opcode? = some opcode ∧
      (opcode.operation word).isKnown = true := by
  cases parcel with
  | outside | compressed | incomplete => cases known
  | whole =>
    obtain ⟨opcode, found, known⟩ := exists_opcode_of_isKnown known
    exact ⟨opcode, rfl, found, known⟩

theorem exists_wellFormed (parcel : Parcel buffer offset instruction)
    (known : instruction.isKnown = true) : ∃ format, instruction.WellFormed format := by
  obtain ⟨opcode, rfl, found, known⟩ := parcel.exists_opcode known
  exact ⟨opcode.format, wellFormed_decodeWord found offset known⟩

theorem exists_row (parcel : Parcel buffer offset instruction)
    (known : instruction.isKnown = true) :
    ∃ layout, instruction.operation.layout? = some layout ∧
      layout.Admits instruction.operands := by
  obtain ⟨opcode, rfl, found, known⟩ := parcel.exists_opcode known
  exact ⟨opcode.layout _, row_decodeWord found offset known⟩

end Parcel

end

/-! ### The program counter -/

/-- Where an effect sends the program counter, if it sets it. -/
def Effect.target? : Effect → Option Int64
  | branch target | link target _ _ => some target
  | none | result _ _ | write _ => .none

theorem Effect.isSome_target?_iff (effect : Effect) :
    effect.target?.isSome = true ↔ effect.kind = .branch ∨ effect.kind = .link := by
  cases effect <;> simp [target?, kind]

namespace Machine

variable {machine : Machine} {instruction : Instruction} {effect : Effect}

/-- Carrying out an effect sets the program counter if the effect has a target, and leaves it alone
otherwise. -/
theorem pc_apply (machine : Machine) (effect : Effect) :
    (machine.apply effect).pc = effect.target?.getD machine.pc := by
  cases effect with
  | write write => cases write <;> rfl
  | _ => rfl

/-- Where the program counter is after an instruction with an effect. Both the effect and the flag
have a say, and for an instruction built by hand they need not agree. -/
theorem pc_execute (works : machine.clearZero.effect? instruction = .ok effect) :
    (machine.execute instruction).2.pc =
      effect.target?.getD machine.pc +
        if instruction.isJump then 0 else instruction.size.toUInt64.toInt64 := by
  rw [execute_of_ok works]
  show ((machine.clearZero.apply effect).advance instruction).pc = _
  have applied : (machine.clearZero.apply effect).pc = effect.target?.getD machine.pc :=
    machine.clearZero.pc_apply effect
  rw [advance_eq, ← applied]
  by_cases jumps : instruction.isJump
  · rw [if_pos jumps, if_pos jumps]
    exact (Int64.add_zero _).symm
  · rw [if_neg jumps, if_neg jumps]
    rfl

/-- The instructions whose effect has a target are those that transfer control. -/
theorem isSome_target?_iff_transfers
    (works : machine.effect? instruction = .ok effect) :
    effect.target?.isSome = true ↔ instruction.operation ∈ Operation.transfers := by
  obtain ⟨action, executes, kind⟩ := machine.exists_action works
  rw [effect.isSome_target?_iff, kind]
  exact (transfers_iff_of_action executes).symm

/-- For a well-formed instruction the effect and the flag agree, so one of them moves the program
counter and the other leaves it alone. -/
theorem pc_execute_of_wellFormed {format : Format} (wellFormed : instruction.WellFormed format)
    (works : machine.clearZero.effect? instruction = .ok effect) :
    (effect.target?.isSome = true ↔ instruction.isJump = true) ∧
      (machine.execute instruction).2.pc = effect.target?.getD (machine.pc + 4) := by
  have agree : effect.target?.isSome = true ↔ instruction.isJump = true :=
    (isSome_target?_iff_transfers works).trans wellFormed.isJump_iff.symm
  refine ⟨agree, ?_⟩
  rw [pc_execute works, wellFormed.size]
  cases target : effect.target? with
  | none =>
    rw [target] at agree
    rw [if_neg fun jumps => Bool.false_ne_true (agree.mpr jumps)]
    rfl
  | some destination =>
    rw [target] at agree
    rw [if_pos (agree.mp rfl)]
    exact Int64.add_zero destination

end Machine

/-! ### The result -/

/-- What decoding finds is well-formed, whatever is in the buffer and wherever one looks. The
instruction records its offset and its width, which is two or four, and has an operation. If it is
known, there is a format that all of it follows; and whenever a machine completes it, its flag says
whether it sets the program counter itself, and the program counter moves once: to the target of the
instruction if it has one, and past the instruction otherwise. -/
theorem decode_wellFormed (buffer : ByteArray) (offset : Int64) :
    (decode buffer offset).size = parcelWidth buffer offset ∧
      ((decode buffer offset).size = 2 ∨ (decode buffer offset).size = 4) ∧
      (decode buffer offset).address = offset ∧
      (decode buffer offset).operation ≠ .invalid ∧
      ((decode buffer offset).isKnown = true →
        (∃ format, (decode buffer offset).WellFormed format) ∧
          ∀ machine : Machine, (machine.execute (decode buffer offset)).1 = .continued →
            ∃ effect, machine.clearZero.effect? (decode buffer offset) = .ok effect ∧
              (effect.target?.isSome = true ↔ (decode buffer offset).isJump = true) ∧
              (machine.execute (decode buffer offset)).2.pc =
                effect.target?.getD (machine.pc + 4)) := by
  have parcel := parcel_decode buffer offset
  have size := size_decode buffer offset
  refine ⟨size, ?_, parcel.address_eq, parcel.ne_invalid, fun known => ?_⟩
  · rw [size]
    exact parcelWidth_cases buffer offset
  · obtain ⟨format, wellFormed⟩ := parcel.exists_wellFormed known
    refine ⟨⟨format, wellFormed⟩, fun machine completed => ?_⟩
    obtain ⟨effect, works⟩ := Machine.exists_effect_of_continued completed
    exact ⟨effect, works, Machine.pc_execute_of_wellFormed wellFormed works⟩

/-- A branch backwards over the greatest distance, behind four bytes of nothing. -/
theorem decode_wellFormed_branch :
    let buffer : ByteArray := ⟨#[0, 0, 0, 0, 0x63, 0xf0, 0x1f, 0x80]⟩
    let machine : Machine := { pc := 4, memory := buffer }
    (decode buffer 4).operation = .bgeu ∧ (decode buffer 4).operands = ⟨31, 1, -4096⟩ ∧
      (∃ format, (decode buffer 4).WellFormed format) ∧
      machine.step.1 = .continued ∧ machine.step.2.pc = -4092 ∧
      ∃ effect, machine.clearZero.effect? (decode buffer 4) = .ok effect ∧
        effect.target? = some (-4092) := by
  intro buffer machine
  have known : (decode buffer 4).isKnown = true := by decide +kernel
  have jumps : (decode buffer 4).isJump = true := by decide +kernel
  have completed : machine.step.1 = .continued := by decide +kernel
  have moved : machine.step.2.pc = -4092 := by decide +kernel
  obtain ⟨-, -, -, -, facts⟩ := decode_wellFormed buffer 4
  obtain ⟨wellFormed, moves⟩ := facts known
  obtain ⟨effect, works, agree, pc⟩ := moves machine completed
  obtain ⟨target, found⟩ := Option.isSome_iff_exists.mp (agree.mpr jumps)
  refine ⟨by decide +kernel, by decide +kernel, wellFormed, completed, moved, effect, works, ?_⟩
  rw [found] at pc
  rw [found, ← moved]
  exact congrArg some pc.symm

end Hart
