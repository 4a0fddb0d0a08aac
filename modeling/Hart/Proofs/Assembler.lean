/-
This file is an assembler for the supported instruction set. An operation has one layout, which says
where its operands go in a word and what the other bits are; a layout says which operands fit. The
assembler knows nothing of decoding: each row of its table is a row of the listing of instructions
in the manual.
-/

import Hart.Proofs.Decoding

namespace Hart

/-- Where the operands of an operation stand in a word, and what the other fields hold. -/
inductive Layout where
  /-- Three registers. -/
  | registers (opcode : Opcode) (funct3 : BitVec 3) (funct7 : BitVec 7)
  /-- Two registers and a signed immediate of twelve bits. -/
  | immediate (opcode : Opcode) (funct3 : BitVec 3)
  /-- Two registers and the amount of a shift of doublewords. -/
  | shift (funct3 : BitVec 3) (funct6 : BitVec 6)
  /-- Two registers and the amount of a shift of words. -/
  | wordShift (funct3 : BitVec 3) (funct7 : BitVec 7)
  /-- A base register, a stored register and an offset. -/
  | store (funct3 : BitVec 3)
  /-- Two compared registers and an even offset. -/
  | branch (funct3 : BitVec 3)
  /-- A register and the plain upper twenty bits. -/
  | loadUpper
  /-- A register and an immediate whose low twelve bits are zero. -/
  | addUpper
  /-- A register and an even offset. -/
  | jump
  /-- No operand is free. -/
  | environment (code : BitVec 12)
deriving DecidableEq

/-- The layout of an operation. The two markers have none. -/
def Operation.layout? : Operation → Option Layout
  | .invalid | .unknown => none
  | .lui => some .loadUpper
  | .auipc => some .addUpper
  | .jal => some .jump
  | .jalr => some (.immediate .jalr 0b000)
  | .beq => some (.branch 0b000)
  | .bne => some (.branch 0b001)
  | .blt => some (.branch 0b100)
  | .bge => some (.branch 0b101)
  | .bltu => some (.branch 0b110)
  | .bgeu => some (.branch 0b111)
  | .lb => some (.immediate .load 0b000)
  | .lh => some (.immediate .load 0b001)
  | .lw => some (.immediate .load 0b010)
  | .ld => some (.immediate .load 0b011)
  | .lbu => some (.immediate .load 0b100)
  | .lhu => some (.immediate .load 0b101)
  | .lwu => some (.immediate .load 0b110)
  | .sb => some (.store 0b000)
  | .sh => some (.store 0b001)
  | .sw => some (.store 0b010)
  | .sd => some (.store 0b011)
  | .addi => some (.immediate .opImm 0b000)
  | .slti => some (.immediate .opImm 0b010)
  | .sltiu => some (.immediate .opImm 0b011)
  | .xori => some (.immediate .opImm 0b100)
  | .ori => some (.immediate .opImm 0b110)
  | .andi => some (.immediate .opImm 0b111)
  | .slli => some (.shift 0b001 0b000000)
  | .srli => some (.shift 0b101 0b000000)
  | .srai => some (.shift 0b101 0b010000)
  | .add => some (.registers .op 0b000 0b0000000)
  | .sub => some (.registers .op 0b000 0b0100000)
  | .sll => some (.registers .op 0b001 0b0000000)
  | .slt => some (.registers .op 0b010 0b0000000)
  | .sltu => some (.registers .op 0b011 0b0000000)
  | .xor => some (.registers .op 0b100 0b0000000)
  | .srl => some (.registers .op 0b101 0b0000000)
  | .sra => some (.registers .op 0b101 0b0100000)
  | .or => some (.registers .op 0b110 0b0000000)
  | .and => some (.registers .op 0b111 0b0000000)
  | .addiw => some (.immediate .opImm32 0b000)
  | .slliw => some (.wordShift 0b001 0b0000000)
  | .srliw => some (.wordShift 0b101 0b0000000)
  | .sraiw => some (.wordShift 0b101 0b0100000)
  | .addw => some (.registers .op32 0b000 0b0000000)
  | .subw => some (.registers .op32 0b000 0b0100000)
  | .sllw => some (.registers .op32 0b001 0b0000000)
  | .srlw => some (.registers .op32 0b101 0b0000000)
  | .sraw => some (.registers .op32 0b101 0b0100000)
  | .fence => some (.immediate .miscMem 0b000)
  | .ecall => some (.environment 0)
  | .ebreak => some (.environment 1)

/-- The low bits of an operand. -/
def Word.field (width : Nat) (operand : Int64) : BitVec width :=
  operand.toBitVec.setWidth width

/-- The operand is a number in a range, both ends included. -/
def Within (low high : Int) (operand : Int64) : Prop :=
  low ≤ operand.toInt ∧ operand.toInt ≤ high

/-! ### Operands in range are their fields -/

section Ranges

open Word

variable {operand : Int64}

theorem signedOperand_field {width : Nat} {low high : Int} (fits : Within low high operand)
    (narrow : width < 64) (least : -2 ^ width ≤ low) (greatest : high < 2 ^ width) :
    signedOperand (field (width + 1) operand) = operand :=
  signedOperand_setWidth operand narrow (Int.le_trans least fits.1)
    (Int.lt_of_le_of_lt fits.2 greatest)

theorem amountOperand_field {width : Nat} {high : Int} (fits : Within 0 high operand)
    (greatest : high < 2 ^ width) : Int64.ofNat (field width operand).toNat = operand :=
  ofNat_toNat_setWidth operand fits.1 (Int.lt_of_le_of_lt fits.2 greatest)

theorem registerOperand_field (fits : Within 0 31 operand) :
    registerOperand (field 5 operand) = operand :=
  amountOperand_field fits (by decide)

theorem append_zero_eq_field (multiple : operand.toInt % 4096 = 0) :
    operand.toBitVec.extractLsb' 12 20 ++ 0#12 = field 32 operand := by
  rw [← extractLsb'_of_multiple (by decide : 12 ≤ 64) multiple,
    BitVec.extractLsb'_append_extractLsb'_eq_extractLsb' (by decide)]
  exact (BitVec.setWidth_eq_extractLsb' (by decide)).symm

theorem extractLsb'_field {width : Nat} (wide : 1 ≤ width) (fits : width ≤ 64)
    (even : operand.toInt % 2 = 0) : (field width operand).extractLsb' 0 1 = 0#1 := by
  unfold field
  rw [BitVec.setWidth_eq_extractLsb' fits, extractLsb'_extractLsb' _ wide]
  exact extractLsb'_of_multiple (by decide) even

end Ranges

namespace Layout

open Word

/-- The opcode of the words of a layout. -/
def opcode : Layout → Opcode
  | registers opcode _ _ | immediate opcode _ => opcode
  | shift _ _ => .opImm
  | wordShift _ _ => .opImm32
  | store _ => .store
  | branch _ => .branch
  | loadUpper => .lui
  | addUpper => .auipc
  | jump => .jal
  | environment _ => .system

/-- The word with the given operands. Bits of an operand that have no place are dropped. -/
def assemble (operands : Operands) : Layout → Word
  | registers opcode funct3 funct7 =>
    ofFields funct7 (field 5 operands.third) (field 5 operands.second) funct3
      (field 5 operands.first) opcode.bits
  | immediate opcode funct3 =>
    ofI (field 12 operands.third) (field 5 operands.second) funct3 (field 5 operands.first)
      opcode.bits
  | shift funct3 funct6 =>
    ofShift funct6 (field 6 operands.third) (field 5 operands.second) funct3
      (field 5 operands.first) Opcode.opImm.bits
  | wordShift funct3 funct7 =>
    ofFields funct7 (field 5 operands.third) (field 5 operands.second) funct3
      (field 5 operands.first) Opcode.opImm32.bits
  | store funct3 =>
    ofS (field 12 operands.third) (field 5 operands.second) (field 5 operands.first) funct3
      Opcode.store.bits
  | branch funct3 =>
    ofB (field 13 operands.third) (field 5 operands.second) (field 5 operands.first) funct3
      Opcode.branch.bits
  | loadUpper => ofUpper (field 20 operands.second) (field 5 operands.first) Opcode.lui.bits
  | addUpper =>
    ofUpper (operands.second.toBitVec.extractLsb' 12 20) (field 5 operands.first)
      Opcode.auipc.bits
  | jump => ofJ (field 21 operands.second) (field 5 operands.first) Opcode.jal.bits
  | environment code => ofI code 0 0 0 Opcode.system.bits

/-- Whether the operands fit a layout. A slot that the layout does not use is zero. -/
def Admits (operands : Operands) : Layout → Prop
  | registers _ _ _ =>
    Within 0 31 operands.first ∧ Within 0 31 operands.second ∧ Within 0 31 operands.third
  | immediate _ _ | store _ =>
    Within 0 31 operands.first ∧ Within 0 31 operands.second ∧
      Within (-2048) 2047 operands.third
  | shift _ _ =>
    Within 0 31 operands.first ∧ Within 0 31 operands.second ∧ Within 0 63 operands.third
  | wordShift _ _ =>
    Within 0 31 operands.first ∧ Within 0 31 operands.second ∧ Within 0 31 operands.third
  | branch _ =>
    Within 0 31 operands.first ∧ Within 0 31 operands.second ∧
      Within (-4096) 4094 operands.third ∧ operands.third.toInt % 2 = 0
  | loadUpper =>
    Within 0 31 operands.first ∧ Within (-524288) 524287 operands.second ∧ operands.third = 0
  | addUpper =>
    Within 0 31 operands.first ∧ Within (-2147483648) 2147483647 operands.second ∧
      operands.second.toInt % 4096 = 0 ∧ operands.third = 0
  | jump =>
    Within 0 31 operands.first ∧ Within (-1048576) 1048574 operands.second ∧
      operands.second.toInt % 2 = 0 ∧ operands.third = 0
  | environment code => operands = ⟨0, 0, signedOperand code⟩

theorem low_assemble (operands : Operands) (layout : Layout) :
    (layout.assemble operands).low = layout.opcode.bits := by
  cases layout with
  | loadUpper | addUpper | jump => exact low_ofUpper _ _ _
  | _ => exact low_ofFields _ _ _ _ _ _

/-! ### The operation of an assembled word -/

/-- The operation of an assembled word is the one whose row was used. -/
theorem operation_assemble {operation : Operation} {layout : Layout}
    (row : operation.layout? = some layout) (operands : Operands) :
    layout.opcode.operation (layout.assemble operands) = operation := by
  cases operation <;> cases row
  case lui | auipc | jal | ecall | ebreak => rfl
  case jalr =>
    show Opcode.jalr.operation (ofFields _ _ _ _ _ _) = _
    rw [Opcode.operation_jalr, funct3_ofFields]
    rfl
  case fence =>
    show Opcode.miscMem.operation (ofFields _ _ _ _ _ _) = _
    rw [Opcode.operation_miscMem, funct3_ofFields]
    rfl
  case beq | bne | blt | bge | bltu | bgeu =>
    show Opcode.branch.operation (ofFields _ _ _ _ _ _) = _
    rw [Opcode.operation_branch, funct3_ofFields]
    rfl
  case lb | lh | lw | ld | lbu | lhu | lwu =>
    show Opcode.load.operation (ofFields _ _ _ _ _ _) = _
    rw [Opcode.operation_load, funct3_ofFields]
    rfl
  case sb | sh | sw | sd =>
    show Opcode.store.operation (ofFields _ _ _ _ _ _) = _
    rw [Opcode.operation_store, funct3_ofFields]
    rfl
  case addi | slti | sltiu | xori | ori | andi =>
    show Opcode.opImm.operation (ofFields _ _ _ _ _ _) = _
    rw [Opcode.operation_opImm, funct3_ofFields]
    rfl
  case slli | srli | srai =>
    show Opcode.opImm.operation (ofShift _ _ _ _ _ _) = _
    rw [Opcode.operation_opImm, funct6_ofShift, ofShift, funct3_ofFields]
    rfl
  case addiw =>
    show Opcode.opImm32.operation (ofFields _ _ _ _ _ _) = _
    rw [Opcode.operation_opImm32, funct3_ofFields]
    rfl
  case slliw | srliw | sraiw =>
    show Opcode.opImm32.operation (ofFields _ _ _ _ _ _) = _
    rw [Opcode.operation_opImm32, funct7_ofFields, funct3_ofFields]
    rfl
  case add | sub | sll | slt | sltu | xor | srl | sra | or | and =>
    show Opcode.op.operation (ofFields _ _ _ _ _ _) = _
    rw [Opcode.operation_op, funct7_ofFields, funct3_ofFields]
    rfl
  case addw | subw | sllw | srlw | sraw =>
    show Opcode.op32.operation (ofFields _ _ _ _ _ _) = _
    rw [Opcode.operation_op32, funct7_ofFields, funct3_ofFields]
    rfl

/-! ### The operands of an assembled word -/

/-- The opcode of the layout reads its operands back from the places where the layout puts them. -/
def Proper : Layout → Prop
  | registers opcode _ _ => opcode = .op ∨ opcode = .op32
  | immediate opcode funct3 =>
    opcode = .jalr ∨ opcode = .load ∨ opcode = .miscMem ∨
      (opcode = .opImm ∨ opcode = .opImm32) ∧ ¬(funct3 = 1 ∨ funct3 = 5)
  | shift funct3 _ | wordShift funct3 _ => funct3 = 1 ∨ funct3 = 5
  | _ => True

theorem proper_of_row {operation : Operation} {layout : Layout}
    (row : operation.layout? = some layout) : layout.Proper := by
  cases operation <;> cases row <;> simp [Proper]

theorem operands_of_immediate {opcode : Opcode} {funct3 : BitVec 3}
    (proper : (immediate opcode funct3).Proper) {word : Word} (same : word.funct3 = funct3) :
    opcode.operands word = Format.i.operands word := by
  subst same
  obtain rfl | rfl | rfl | ⟨rfl | rfl, plain⟩ := proper
  · rfl
  · rfl
  · rfl
  · exact (Opcode.operands_opImm word).trans (congrArg (Operands.mk _ _) (if_neg plain))
  · exact (Opcode.operands_opImm32 word).trans (congrArg (Operands.mk _ _) (if_neg plain))

/-- An opcode that reads a layout's operands reads back those that were put there. -/
theorem operands_assemble {layout : Layout} (proper : layout.Proper) {operands : Operands}
    (fits : layout.Admits operands) :
    layout.opcode.operands (layout.assemble operands) = operands := by
  cases layout with
  | registers opcode funct3 funct7 =>
    obtain ⟨first, second, third⟩ := fits
    have format : opcode.operands ((registers opcode funct3 funct7).assemble operands) =
        Format.r.operands ((registers opcode funct3 funct7).assemble operands) := by
      obtain rfl | rfl := proper
      · rfl
      · rfl
    refine format.trans ?_
    show Operands.mk (registerOperand (ofFields _ _ _ _ _ _).rd)
      (registerOperand (ofFields _ _ _ _ _ _).rs1) (registerOperand (ofFields _ _ _ _ _ _).rs2) = _
    rw [rd_ofFields, rs1_ofFields, rs2_ofFields, registerOperand_field first,
      registerOperand_field second, registerOperand_field third]
  | immediate opcode funct3 =>
    obtain ⟨first, second, third⟩ := fits
    refine (operands_of_immediate proper (funct3_ofI _ _ _ _ _)).trans ?_
    show Operands.mk (registerOperand (ofI _ _ _ _ _).rd) (registerOperand (ofI _ _ _ _ _).rs1)
      (signedOperand (ofI _ _ _ _ _).immediateI) = _
    rw [rd_ofI, rs1_ofI, immediateI_ofI, registerOperand_field first,
      registerOperand_field second,
      signedOperand_field third (by decide) (by decide) (by decide)]
  | shift funct3 funct6 =>
    obtain ⟨first, second, third⟩ := fits
    have shifts : Opcode.ShiftsBy ((shift funct3 funct6).assemble operands) := by
      show (ofShift _ _ _ _ _ _).funct3 = 1 ∨ (ofShift _ _ _ _ _ _).funct3 = 5
      rw [funct3_ofShift]
      exact proper
    refine (Opcode.operands_opImm _).trans ?_
    rw [if_pos shifts]
    show Operands.mk (registerOperand (ofShift _ _ _ _ _ _).rd)
      (registerOperand (ofShift _ _ _ _ _ _).rs1)
      (Int64.ofNat (ofShift _ _ _ _ _ _).shamt6.toNat) = _
    rw [rd_ofShift, rs1_ofShift, shamt6_ofShift, registerOperand_field first,
      registerOperand_field second, amountOperand_field third (by decide)]
  | wordShift funct3 funct7 =>
    obtain ⟨first, second, third⟩ := fits
    have shifts : Opcode.ShiftsBy ((wordShift funct3 funct7).assemble operands) := by
      show (ofFields _ _ _ _ _ _).funct3 = 1 ∨ (ofFields _ _ _ _ _ _).funct3 = 5
      rw [funct3_ofFields]
      exact proper
    refine (Opcode.operands_opImm32 _).trans ?_
    rw [if_pos shifts]
    show Operands.mk (registerOperand (ofFields _ _ _ _ _ _).rd)
      (registerOperand (ofFields _ _ _ _ _ _).rs1)
      (Int64.ofNat (ofFields _ _ _ _ _ _).rs2.toNat) = _
    rw [rd_ofFields, rs1_ofFields, rs2_ofFields, registerOperand_field first,
      registerOperand_field second, amountOperand_field third (by decide)]
  | store funct3 =>
    obtain ⟨first, second, third⟩ := fits
    show Operands.mk (registerOperand (ofS _ _ _ _ _).rs1) (registerOperand (ofS _ _ _ _ _).rs2)
      (signedOperand (ofS _ _ _ _ _).immediateS) = _
    rw [rs1_ofS, rs2_ofS, immediateS_ofS, registerOperand_field first,
      registerOperand_field second,
      signedOperand_field third (by decide) (by decide) (by decide)]
  | branch funct3 =>
    obtain ⟨first, second, third, even⟩ := fits
    show Operands.mk (registerOperand (ofB _ _ _ _ _).rs1) (registerOperand (ofB _ _ _ _ _).rs2)
      (signedOperand (ofB _ _ _ _ _).immediateB) = _
    rw [rs1_ofB, rs2_ofB, immediateB_ofB _ (extractLsb'_field (by decide) (by decide) even),
      registerOperand_field first, registerOperand_field second,
      signedOperand_field third (by decide) (by decide) (by decide)]
  | loadUpper =>
    obtain ⟨first, second, third⟩ := fits
    show Operands.mk (registerOperand (ofUpper _ _ _).rd) (signedOperand (ofUpper _ _ _).upper) 0 =
      _
    rw [rd_ofUpper, upper_ofUpper, registerOperand_field first,
      signedOperand_field second (by decide) (by decide) (by decide), ← third]
  | addUpper =>
    obtain ⟨first, second, multiple, third⟩ := fits
    show Operands.mk (registerOperand (ofUpper _ _ _).rd)
      (signedOperand ((ofUpper _ _ _).upper ++ 0#12)) 0 = _
    rw [rd_ofUpper, upper_ofUpper, registerOperand_field first, append_zero_eq_field multiple,
      signedOperand_field second (by decide) (by decide) (by decide), ← third]
  | jump =>
    obtain ⟨first, second, even, third⟩ := fits
    show Operands.mk (registerOperand (ofJ _ _ _).rd) (signedOperand (ofJ _ _ _).immediateJ) 0 = _
    rw [rd_ofJ, immediateJ_ofJ _ (extractLsb'_field (by decide) (by decide) even),
      registerOperand_field first,
      signedOperand_field second (by decide) (by decide) (by decide), ← third]
  | environment code =>
    show Operands.mk (registerOperand (ofI _ _ _ _ _).rd) (registerOperand (ofI _ _ _ _ _).rs1)
      (signedOperand (ofI _ _ _ _ _).immediateI) = _
    rw [rd_ofI, rs1_ofI, immediateI_ofI, fits]
    rfl

end Layout

end Hart
