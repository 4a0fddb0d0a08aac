/-
This file proves that decoding is the inverse of assembling. One direction is about the operands: an
assembled word decodes to the operation and the operands it was assembled from. The other is about
the words: whatever decodes to an operation is the word that the assembler makes of it, bit by bit,
so no encoding beside the standard ones is recognised.
-/

import Hart.Proofs.Assembler

namespace Hart

open Word

/-! ### The layout of a word -/

/-- The layout that a word of an opcode has, if it has one. -/
def Opcode.layout (word : Word) : Opcode → Layout
  | .load => .immediate .load word.funct3
  | .miscMem => .immediate .miscMem word.funct3
  | .opImm =>
    if ShiftsBy word then .shift word.funct3 word.funct6 else .immediate .opImm word.funct3
  | .auipc => .addUpper
  | .opImm32 =>
    if ShiftsBy word then .wordShift word.funct3 word.funct7 else .immediate .opImm32 word.funct3
  | .store => .store word.funct3
  | .op => .registers .op word.funct3 word.funct7
  | .lui => .loadUpper
  | .op32 => .registers .op32 word.funct3 word.funct7
  | .branch => .branch word.funct3
  | .jalr => .immediate .jalr word.funct3
  | .jal => .jump
  | .system => .environment word.immediateI

/-- An operation has one layout, and the layout is that of its words. -/
def Fitting (operation : Operation) (layout : Layout) : Prop :=
  operation.isKnown = true → operation.layout? = some layout

instance (operation : Operation) (layout : Layout) : Decidable (Fitting operation layout) :=
  inferInstanceAs (Decidable (_ → _))

namespace Opcode

variable (word : Word)

theorem layout_opImm :
    opImm.layout word =
      if ShiftsBy word then .shift word.funct3 word.funct6
      else .immediate .opImm word.funct3 := rfl

theorem layout_opImm32 :
    opImm32.layout word =
      if ShiftsBy word then .wordShift word.funct3 word.funct7
      else .immediate .opImm32 word.funct3 := rfl

theorem fitting_alternate {opcode : Opcode} {table : Table}
    {sum difference logical arithmetic : Operation}
    (plain : ∀ funct3 : BitVec 3,
      Fitting (Refinement.alternate sum difference logical arithmetic 0
          ((table.get funct3.toFin).getD .invalid)).settled
        (.registers opcode funct3 0))
    (other : ∀ funct3 : BitVec 3,
      Fitting (Refinement.alternate sum difference logical arithmetic 0b0100000
          ((table.get funct3.toFin).getD .invalid)).settled
        (.registers opcode funct3 0b0100000))
    (funct7 : BitVec 7) (funct3 : BitVec 3) :
    Fitting (Refinement.alternate sum difference logical arithmetic funct7
        ((table.get funct3.toFin).getD .invalid)).settled
      (.registers opcode funct3 funct7) := by
  by_cases zero : funct7 = 0
  · subst zero
    exact plain funct3
  · by_cases alternate : funct7 = 0b0100000
    · subst alternate
      exact other funct3
    · rw [Refinement.alternate_of_reserved zero alternate]
      exact nofun

theorem fitting_op : Fitting (op.operation word) (op.layout word) := by
  rw [operation_op]
  exact fitting_alternate (by decide) (by decide) word.funct7 word.funct3

theorem fitting_op32 : Fitting (op32.operation word) (op32.layout word) := by
  rw [operation_op32]
  exact fitting_alternate (by decide) (by decide) word.funct7 word.funct3

theorem fitting_opImm_shift (shift : ShiftsBy word) :
    Fitting (opImm.operation word) (.shift word.funct3 word.funct6) := by
  rw [operation_opImm]
  generalize word.funct6 = funct6
  obtain one | five := shift
  · rw [one]
    show Fitting (Refinement.doublewordShift funct6 .slli).settled _
    by_cases plain : funct6 = 0
    · subst plain
      exact fun _ => rfl
    · rw [Refinement.doublewordShift_slli plain]
      exact nofun
  · rw [five]
    show Fitting (Refinement.doublewordShift funct6 .srli).settled _
    by_cases plain : funct6 = 0
    · subst plain
      exact fun _ => rfl
    · by_cases alternate : funct6 = 0b010000
      · subst alternate
        exact fun _ => rfl
      · rw [Refinement.doublewordShift_srli plain alternate]
        exact nofun

theorem fitting_opImm (plain : ¬ShiftsBy word) :
    Fitting (opImm.operation word) (.immediate .opImm word.funct3) := by
  rw [operation_opImm]
  unfold ShiftsBy at plain
  generalize word.funct3 = funct3 at plain
  obtain rfl | rfl | rfl | rfl | rfl | rfl | rfl | rfl := funct3_cases funct3
  case inr.inl => exact absurd (Or.inl rfl) plain
  case inr.inr.inr.inr.inr.inl => exact absurd (Or.inr rfl) plain
  all_goals exact fun _ => rfl

theorem fitting_opImm32_shift (shift : ShiftsBy word) :
    Fitting (opImm32.operation word) (.wordShift word.funct3 word.funct7) := by
  rw [operation_opImm32]
  generalize word.funct7 = funct7
  obtain one | five := shift
  · rw [one]
    show Fitting (Refinement.wordShift funct7 .slliw).settled _
    by_cases plain : funct7 = 0
    · subst plain
      exact fun _ => rfl
    · rw [Refinement.wordShift_slliw plain]
      exact nofun
  · rw [five]
    show Fitting (Refinement.wordShift funct7 .srliw).settled _
    by_cases plain : funct7 = 0
    · subst plain
      exact fun _ => rfl
    · by_cases alternate : funct7 = 0b0100000
      · subst alternate
        exact fun _ => rfl
      · rw [Refinement.wordShift_srliw plain alternate]
        exact nofun

theorem fitting_opImm32 (plain : ¬ShiftsBy word) :
    Fitting (opImm32.operation word) (.immediate .opImm32 word.funct3) := by
  rw [operation_opImm32]
  unfold ShiftsBy at plain
  generalize word.funct3 = funct3 at plain
  obtain rfl | rfl | rfl | rfl | rfl | rfl | rfl | rfl := funct3_cases funct3
  case inl => exact fun _ => rfl
  case inr.inl => exact absurd (Or.inl rfl) plain
  case inr.inr.inr.inr.inr.inl => exact absurd (Or.inr rfl) plain
  all_goals exact nofun

theorem fitting_system : Fitting (system.operation word) (.environment word.immediateI) := by
  rw [operation_system]
  by_cases call : word = 0x00000073
  · subst call
    exact fun _ => rfl
  · by_cases breakpoint : word = 0x00100073
    · subst breakpoint
      exact fun _ => rfl
    · rw [if_neg call, if_neg breakpoint]
      exact nofun

theorem fitting (opcode : Opcode) : Fitting (opcode.operation word) (opcode.layout word) := by
  cases opcode with
  | lui | auipc | jal => exact fun _ => rfl
  | op => exact fitting_op word
  | op32 => exact fitting_op32 word
  | opImm =>
    rw [layout_opImm]
    by_cases shift : ShiftsBy word
    · rw [if_pos shift]
      exact fitting_opImm_shift word shift
    · rw [if_neg shift]
      exact fitting_opImm word shift
  | opImm32 =>
    rw [layout_opImm32]
    by_cases shift : ShiftsBy word
    · rw [if_pos shift]
      exact fitting_opImm32_shift word shift
    · rw [if_neg shift]
      exact fitting_opImm32 word shift
  | load =>
    have rows : ∀ funct3 : BitVec 3,
        Fitting ((loadTable.get funct3.toFin).getD .invalid).settled (.immediate .load funct3) := by
      decide
    exact rows word.funct3
  | miscMem =>
    have rows : ∀ funct3 : BitVec 3,
        Fitting ((miscMemTable.get funct3.toFin).getD .invalid).settled
          (.immediate .miscMem funct3) := by
      decide
    exact rows word.funct3
  | store =>
    have rows : ∀ funct3 : BitVec 3,
        Fitting ((storeTable.get funct3.toFin).getD .invalid).settled (.store funct3) := by decide
    exact rows word.funct3
  | branch =>
    have rows : ∀ funct3 : BitVec 3,
        Fitting ((branchTable.get funct3.toFin).getD .invalid).settled (.branch funct3) := by decide
    exact rows word.funct3
  | jalr =>
    have rows : ∀ funct3 : BitVec 3,
        Fitting (if funct3 = 0 then Operation.jalr else .unknown).settled
          (.immediate .jalr funct3) := by decide
    exact rows word.funct3
  | system => exact fitting_system word

/-- Only the two exact words of the opcode are known. -/
theorem system_cases {word : Word} (known : (system.operation word).isKnown = true) :
    word = 0x00000073 ∨ word = 0x00100073 := by
  rw [operation_system] at known
  by_cases call : word = 0x00000073
  · exact Or.inl call
  · by_cases breakpoint : word = 0x00100073
    · exact Or.inr breakpoint
    · rw [if_neg call, if_neg breakpoint] at known
      cases known

end Opcode

/-! ### The operands of a word are its fields -/

theorem field_amount {width : Nat} (bits : BitVec width) (fits : width ≤ 64) :
    field width (Int64.ofNat bits.toNat) = bits :=
  setWidth_ofNat_toNat bits fits

theorem field_registerOperand (bits : BitVec 5) : field 5 (registerOperand bits) = bits :=
  field_amount bits (by decide)

theorem field_signedOperand {width : Nat} (bits : BitVec width) (fits : width ≤ 64) :
    field width (signedOperand bits) = bits :=
  setWidth_signedOperand bits fits

theorem extractLsb'_signedOperand_immediateU (word : Word) :
    (signedOperand word.immediateU).toBitVec.extractLsb' 12 20 = word.upper := by
  have whole : (signedOperand word.immediateU).toBitVec.extractLsb' 0 32 = word.immediateU := by
    rw [← BitVec.setWidth_eq_extractLsb' (by decide)]
    exact setWidth_signedOperand word.immediateU (by decide)
  have cut : (signedOperand word.immediateU).toBitVec.extractLsb' 12 20 =
      ((signedOperand word.immediateU).toBitVec.extractLsb' 0 32).extractLsb' 12 20 :=
    (extractLsb'_extractLsb' _ (by decide : 12 + 20 ≤ 32)).symm
  rw [cut, whole]
  exact BitVec.extractLsb'_append_eq_left

/-- The fields of format R put a word together again. -/
theorem ofFields_operands (word : Word) :
    ofFields word.funct7 (field 5 (registerOperand word.rs2)) (field 5 (registerOperand word.rs1))
      word.funct3 (field 5 (registerOperand word.rd)) word.low = word := by
  rw [field_registerOperand, field_registerOperand, field_registerOperand]
  exact ofFields_fields word

/-- The fields of format I put a word together again. -/
theorem ofI_operands (word : Word) :
    ofI (field 12 (signedOperand word.immediateI)) (field 5 (registerOperand word.rs1)) word.funct3
      (field 5 (registerOperand word.rd)) word.low = word := by
  rw [field_signedOperand _ (by decide), field_registerOperand, field_registerOperand]
  exact ofI_immediateI word

/-- Assembling what a word decodes to gives the word. -/
theorem assemble_operands {word : Word} {opcode : Opcode} (low : word.low = opcode.bits)
    (known : (opcode.operation word).isKnown = true) :
    (opcode.layout word).assemble (opcode.operands word) = word := by
  cases opcode with
  | load | miscMem | jalr =>
    refine Eq.trans ?_ (ofI_operands word)
    rw [low]
    rfl
  | op | op32 =>
    refine Eq.trans ?_ (ofFields_operands word)
    rw [low]
    rfl
  | opImm =>
    rw [Opcode.layout_opImm, Opcode.operands_opImm]
    by_cases shift : Opcode.ShiftsBy word
    · rw [if_pos shift, if_pos shift]
      show ofShift word.funct6 (field 6 (Int64.ofNat word.shamt6.toNat))
        (field 5 (registerOperand word.rs1)) word.funct3 (field 5 (registerOperand word.rd)) _ =
          word
      rw [field_amount _ (by decide), field_registerOperand, field_registerOperand, ← low]
      exact ofShift_shamt6 word
    · rw [if_neg shift, if_neg shift]
      refine Eq.trans ?_ (ofI_operands word)
      rw [low]
      rfl
  | opImm32 =>
    rw [Opcode.layout_opImm32, Opcode.operands_opImm32]
    by_cases shift : Opcode.ShiftsBy word
    · rw [if_pos shift, if_pos shift]
      refine Eq.trans ?_ (ofFields_operands word)
      rw [low]
      rfl
    · rw [if_neg shift, if_neg shift]
      refine Eq.trans ?_ (ofI_operands word)
      rw [low]
      rfl
  | store =>
    show ofS (field 12 (signedOperand word.immediateS)) (field 5 (registerOperand word.rs2))
      (field 5 (registerOperand word.rs1)) word.funct3 _ = word
    rw [field_signedOperand _ (by decide), field_registerOperand, field_registerOperand, ← low]
    exact ofS_immediateS word
  | branch =>
    show ofB (field 13 (signedOperand word.immediateB)) (field 5 (registerOperand word.rs2))
      (field 5 (registerOperand word.rs1)) word.funct3 _ = word
    rw [field_signedOperand _ (by decide), field_registerOperand, field_registerOperand, ← low]
    exact ofB_immediateB word
  | lui =>
    show ofUpper (field 20 (signedOperand word.upper)) (field 5 (registerOperand word.rd)) _ = word
    rw [field_signedOperand _ (by decide), field_registerOperand, ← low]
    exact ofUpper_fields word
  | auipc =>
    show ofUpper ((signedOperand word.immediateU).toBitVec.extractLsb' 12 20)
      (field 5 (registerOperand word.rd)) _ = word
    rw [extractLsb'_signedOperand_immediateU, field_registerOperand, ← low]
    exact ofUpper_fields word
  | jal =>
    show ofJ (field 21 (signedOperand word.immediateJ)) (field 5 (registerOperand word.rd)) _ = word
    rw [field_signedOperand _ (by decide), field_registerOperand, ← low]
    exact ofJ_immediateJ word
  | system =>
    obtain rfl | rfl := Opcode.system_cases known
    · rfl
    · rfl

/-! ### The operands of a word fit its layout -/

theorem within_amount {width : Nat} (bits : BitVec width) (narrow : width < 64) {high : Int}
    (greatest : 2 ^ width ≤ high + 1) : Within 0 high (Int64.ofNat bits.toNat) := by
  have bound : (bits.toNat : Int) < 2 ^ width := by exact_mod_cast bits.isLt
  unfold Within
  rw [toInt_ofNat_toNat bits narrow]
  omega

theorem within_registerOperand (bits : BitVec 5) : Within 0 31 (registerOperand bits) :=
  within_amount bits (by decide) (by decide)

theorem within_signedOperand {width : Nat} (bits : BitVec (width + 1)) (narrow : width < 64)
    {low high : Int} (least : low ≤ -2 ^ width) (greatest : 2 ^ width ≤ high + 1) :
    Within low high (signedOperand bits) := by
  have lower : -2 ^ width ≤ bits.toInt := BitVec.le_toInt bits
  have upper : bits.toInt < 2 ^ width := BitVec.toInt_lt
  unfold Within
  rw [toInt_signedOperand _ narrow]
  exact ⟨Int.le_trans least lower, by omega⟩

/-- An offset whose lowest bit is not stored is even, so the greatest number of its width is not
reached. -/
theorem within_evenOperand {width : Nat} (bits : BitVec width) (narrow : width + 1 ≤ 64)
    {low high : Int} (fits : Within low (high + 1) (signedOperand (bits ++ 0#1)))
    (even : high % 2 = 0) :
    Within low high (signedOperand (bits ++ 0#1)) ∧
      (signedOperand (bits ++ 0#1)).toInt % 2 = 0 := by
  have multiple : (signedOperand (bits ++ 0#1)).toInt % 2 = 0 := by
    rw [toInt_signedOperand _ narrow]
    exact toInt_append_zero bits
  refine ⟨⟨fits.1, ?_⟩, multiple⟩
  have bound := fits.2
  omega

theorem admits_operands {word : Word} {opcode : Opcode}
    (known : (opcode.operation word).isKnown = true) :
    (opcode.layout word).Admits (opcode.operands word) := by
  have rd := within_registerOperand word.rd
  have rs1 := within_registerOperand word.rs1
  have rs2 := within_registerOperand word.rs2
  have immediateI : Within (-2048) 2047 (signedOperand word.immediateI) :=
    within_signedOperand _ (by decide) (by decide) (by decide)
  cases opcode with
  | load | miscMem | jalr => exact ⟨rd, rs1, immediateI⟩
  | op | op32 => exact ⟨rd, rs1, rs2⟩
  | opImm =>
    rw [Opcode.layout_opImm, Opcode.operands_opImm]
    by_cases shift : Opcode.ShiftsBy word
    · rw [if_pos shift, if_pos shift]
      exact ⟨rd, rs1, within_amount _ (by decide) (by decide)⟩
    · rw [if_neg shift, if_neg shift]
      exact ⟨rd, rs1, immediateI⟩
  | opImm32 =>
    rw [Opcode.layout_opImm32, Opcode.operands_opImm32]
    by_cases shift : Opcode.ShiftsBy word
    · rw [if_pos shift, if_pos shift]
      exact ⟨rd, rs1, rs2⟩
    · rw [if_neg shift, if_neg shift]
      exact ⟨rd, rs1, immediateI⟩
  | store =>
    exact ⟨rs1, rs2, within_signedOperand _ (by decide) (by decide) (by decide)⟩
  | branch =>
    exact ⟨rs1, rs2, within_evenOperand _ (by decide)
      (within_signedOperand _ (by decide) (by decide) (by decide)) (by decide)⟩
  | lui =>
    exact ⟨rd, within_signedOperand _ (by decide) (by decide) (by decide), rfl⟩
  | auipc =>
    refine ⟨rd, within_signedOperand _ (by decide) (by decide) (by decide), ?_, rfl⟩
    show (signedOperand (word.upper ++ 0#12)).toInt % 4096 = 0
    rw [toInt_signedOperand _ (by decide)]
    exact toInt_append_zero word.upper
  | jal =>
    have offset : Within (-1048576) 1048574 (signedOperand word.immediateJ) ∧
        (signedOperand word.immediateJ).toInt % 2 = 0 :=
      within_evenOperand _ (by decide)
        (within_signedOperand _ (by decide) (by decide) (by decide)) (by decide)
    exact ⟨rd, offset.1, offset.2, rfl⟩
  | system =>
    obtain rfl | rfl := Opcode.system_cases known
    · rfl
    · rfl

/-! ### Assembling and decoding -/

/-- The word of an operation with the given operands. -/
def encode? (operation : Operation) (operands : Operands) : Option Word :=
  operation.layout?.map (·.assemble operands)

/-- The operands are in the ranges of the operation's layout. -/
def Operation.Admits (operation : Operation) (operands : Operands) : Prop :=
  ∃ layout, operation.layout? = some layout ∧ layout.Admits operands

theorem Operation.isSome_layout? (operation : Operation) :
    operation.layout?.isSome = operation.isKnown := by
  cases operation <;> rfl

theorem encode?_of_row {operation : Operation} {layout : Layout}
    (row : operation.layout? = some layout) (operands : Operands) :
    encode? operation operands = some (layout.assemble operands) := by
  unfold encode?
  rw [row]
  rfl

theorem decodeWord_assemble {operation : Operation} {layout : Layout}
    (row : operation.layout? = some layout) {operands : Operands} (fits : layout.Admits operands)
    (address : Int64) :
    (decodeWord (layout.assemble operands) address).operation = operation ∧
      (decodeWord (layout.assemble operands) address).operands = operands := by
  have found := Word.opcode?_of_low (Layout.low_assemble operands layout)
  rw [decodeWord_of_opcode found]
  exact ⟨Layout.operation_assemble row operands,
    Layout.operands_assemble (Layout.proper_of_row row) fits⟩

/-- A standard word that is recognised is what the assembler makes of its operation and operands,
and these are in range. -/
theorem encode?_decodeWord {word : Word} (standard : word.isStandard) {address : Int64}
    (known : (decodeWord word address).isKnown = true) :
    (decodeWord word address).operation.Admits (decodeWord word address).operands ∧
      encode? (decodeWord word address).operation (decodeWord word address).operands =
        some word := by
  cases found : word.opcode? with
  | none =>
    rw [decodeWord_of_opcode?_eq_none found] at known
    cases known
  | some opcode =>
    have decoded := decodeWord_of_opcode found address
    rw [decoded] at known ⊢
    have row := Opcode.fitting word opcode known
    refine ⟨⟨opcode.layout word, row, admits_operands known⟩, ?_⟩
    rw [encode?_of_row row]
    exact congrArg some (assemble_operands (Word.low_of_opcode? standard found) known)

/-- Decoding is the inverse of assembling. Every operation of the instruction set has a word for all
operands in range, and the word decodes to that operation and those operands at every address. Every
standard word that decodes to an operation is the word of that operation and of its operands. So the
standard words that are recognised are exactly the words of operations with operands in range, and
no two of them decode alike. -/
theorem decode_encode :
    (∀ (operation : Operation) (operands : Operands), operation.isKnown = true →
        operation.Admits operands →
          ∃ word, encode? operation operands = some word ∧ word.isStandard ∧ ∀ address,
            (decodeWord word address).isKnown = true ∧
              (decodeWord word address).operation = operation ∧
              (decodeWord word address).operands = operands) ∧
      (∀ (word : Word) (address : Int64), word.isStandard →
        (decodeWord word address).isKnown = true →
          encode? (decodeWord word address).operation (decodeWord word address).operands =
            some word) ∧
      (∀ (word : Word) (address : Int64),
        word.isStandard ∧ (decodeWord word address).isKnown = true ↔
          ∃ operation operands, operation.Admits operands ∧
            encode? operation operands = some word) ∧
      (∀ (first second : Word) (address other : Int64), first.isStandard → second.isStandard →
        (decodeWord first address).isKnown = true →
        (decodeWord first address).operation = (decodeWord second other).operation →
        (decodeWord first address).operands = (decodeWord second other).operands →
          first = second) := by
  refine ⟨?_, ?_, ?_, ?_⟩
  · rintro operation operands known ⟨layout, row, fits⟩
    refine ⟨layout.assemble operands, encode?_of_row row operands,
      Word.isStandard_of_low (layout.low_assemble operands), fun address => ?_⟩
    obtain ⟨sameOperation, sameOperands⟩ := decodeWord_assemble row fits address
    refine ⟨?_, sameOperation, sameOperands⟩
    unfold Instruction.isKnown
    rw [sameOperation]
    exact known
  · intro word address standard known
    exact (encode?_decodeWord standard known).2
  · intro word address
    constructor
    · rintro ⟨standard, known⟩
      obtain ⟨fits, encoded⟩ := encode?_decodeWord standard known
      exact ⟨_, _, fits, encoded⟩
    · rintro ⟨operation, operands, ⟨layout, row, fits⟩, encoded⟩
      rw [encode?_of_row row] at encoded
      cases encoded
      refine ⟨Word.isStandard_of_low (layout.low_assemble operands), ?_⟩
      unfold Instruction.isKnown
      rw [(decodeWord_assemble row fits address).1, ← operation.isSome_layout?, row]
      rfl
  · intro first second address other standard standard' known sameOperation sameOperands
    have known' : (decodeWord second other).isKnown = true := by
      unfold Instruction.isKnown
      rw [← sameOperation]
      exact known
    have encoded := (encode?_decodeWord standard known).2
    rw [sameOperation, sameOperands, (encode?_decodeWord standard' known').2] at encoded
    exact (Option.some.inj encoded).symm

/-- A backward branch over the greatest distance. -/
theorem decode_encode_branch :
    let operands : Operands := ⟨31, 1, -4096⟩
    ∃ word, encode? .bgeu operands = some word ∧ word = 0x801ff063 ∧
      ∀ address, (decodeWord word address).operation = .bgeu ∧
        (decodeWord word address).operands = operands := by
  intro operands
  have fits : Operation.bgeu.Admits operands :=
    ⟨.branch 0b111, rfl, ⟨by decide, by decide⟩, ⟨by decide, by decide⟩,
      ⟨by decide, by decide⟩, by decide⟩
  obtain ⟨word, encoded, -, decoded⟩ := decode_encode.1 .bgeu operands rfl fits
  refine ⟨word, encoded, ?_, fun address => (decoded address).2⟩
  rw [← Option.some.inj encoded]
  decide

end Hart
