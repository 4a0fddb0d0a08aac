/-
This file compares the two accounts of what the operations of one opcode do. The machine goes from
the word to an operation and from the operation to an action; the reference reads the same tables
off the fields of the word. For each opcode with a table the two agree row by row, and the rows that
one of them leaves empty are empty in the other.
-/

import Hart.Proofs.Decoding
import Hart.Proofs.Arithmetic
import Hart.Proofs.View

namespace Hart

open Arithmetic Reference
open Bytes (slice littleEndian)

/-! ### Branches -/

/-- A condition of the machine is a row of the branch table. -/
def Decides (funct3 : BitVec 3) (condition : UInt64 → UInt64 → Bool) : Prop :=
  ∀ first second, taken? funct3 first.toBitVec second.toBitVec = some (condition first second)

/-- Every word of the branch opcode is a branch on the condition of its row, or its row is empty. -/
theorem branch_action (word : Word) :
    (∃ condition, (Opcode.branch.operation word).action? = some (.branch condition) ∧
        Decides word.funct3 condition) ∨
      (Opcode.branch.operation word).action? = none ∧
        ∀ first second, taken? word.funct3 first second = none := by
  rw [Opcode.operation_branch]
  generalize word.funct3 = funct3
  obtain rfl | rfl | rfl | rfl | rfl | rfl | rfl | rfl := funct3_cases funct3
  · exact Or.inl ⟨fun first second => first == second, rfl, fun first second =>
      congrArg some (beq_eq first second).symm⟩
  · refine Or.inl ⟨fun first second => first != second, rfl, fun first second => ?_⟩
    show some (!(first.toBitVec == second.toBitVec)) = some (!(first == second))
    rw [beq_eq]
  · exact Or.inr ⟨rfl, fun _ _ => rfl⟩
  · exact Or.inr ⟨rfl, fun _ _ => rfl⟩
  · exact Or.inl ⟨lessSigned, rfl, fun first second =>
      congrArg some (lessSigned_eq first second).symm⟩
  · refine Or.inl ⟨fun first second => !lessSigned first second, rfl, fun first second => ?_⟩
    show some (!first.toBitVec.slt second.toBitVec) = some (!lessSigned first second)
    rw [lessSigned_eq]
  · exact Or.inl ⟨lessUnsigned, rfl, fun first second =>
      congrArg some (lessUnsigned_eq first second).symm⟩
  · refine Or.inl ⟨fun first second => !lessUnsigned first second, rfl, fun first second => ?_⟩
    show some (!first.toBitVec.ult second.toBitVec) = some (!lessUnsigned first second)
    rw [lessUnsigned_eq]

/-! ### Loads and stores -/

/-- What a machine reads, as a register value, is a row of the load table. -/
def Loads (funct3 : BitVec 3) (width : Nat) (extend : UInt64 → UInt64) : Prop :=
  ∀ (machine : Machine) (index : Nat),
    loaded? machine.view funct3 index =
      some (width,
        (extend (UInt64.ofNat (littleEndian (slice machine.memory index width)))).toBitVec)

/-- A register that holds a short number, cut and extended. -/
theorem extractLsb'_ofNat_toNat {width : Nat} (bits : BitVec width) (fits : width ≤ 64) :
    (UInt64.ofNat bits.toNat).toBitVec.extractLsb' 0 width = bits := by
  rw [← BitVec.setWidth_eq_extractLsb' fits]
  exact setWidth_ofNat_toNat bits fits

theorem toBitVec_ofNat_toNat {width : Nat} (bits : BitVec width) :
    (UInt64.ofNat bits.toNat).toBitVec = bits.setWidth 64 :=
  BitVec.ofNat_toNat 64 bits

theorem load_action (word : Word) :
    (∃ width extend, (Opcode.load.operation word).action? = some (.load width extend) ∧
        width ∈ Machine.accessWidths ∧ Loads word.funct3 width extend) ∨
      (Opcode.load.operation word).action? = none ∧
        ∀ state index, loaded? state word.funct3 index = none := by
  rw [Opcode.operation_load]
  generalize word.funct3 = funct3
  have byte : ∀ (machine : Machine) (index : Nat),
      littleEndian (slice machine.memory index 1) = (machine.view.byte index).toNat :=
    fun _ _ => rfl
  obtain rfl | rfl | rfl | rfl | rfl | rfl | rfl | rfl := funct3_cases funct3
  · refine Or.inl ⟨1, signExtend8, rfl, by decide, fun machine index => ?_⟩
    rw [byte, toBitVec_signExtend8]
    show some (1, (machine.view.byte index).signExtend 64) =
      some (1, ((UInt64.ofNat _).toBitVec.extractLsb' 0 8).signExtend 64)
    rw [extractLsb'_ofNat_toNat _ (by decide)]
  · refine Or.inl ⟨2, signExtend16, rfl, by decide, fun machine index => ?_⟩
    rw [← Machine.toNat_half, toBitVec_signExtend16]
    show some (2, (machine.view.half index).signExtend 64) =
      some (2, ((UInt64.ofNat _).toBitVec.extractLsb' 0 16).signExtend 64)
    rw [extractLsb'_ofNat_toNat _ (by decide)]
  · refine Or.inl ⟨4, signExtend32, rfl, by decide, fun machine index => ?_⟩
    rw [← Machine.toNat_word, toBitVec_signExtend32]
    show some (4, (machine.view.word index).signExtend 64) =
      some (4, ((UInt64.ofNat _).toBitVec.extractLsb' 0 32).signExtend 64)
    rw [extractLsb'_ofNat_toNat _ (by decide)]
  · refine Or.inl ⟨8, id, rfl, by decide, fun machine index => ?_⟩
    rw [← Machine.toNat_double, id, toBitVec_ofNat_toNat, BitVec.setWidth_eq]
    rfl
  · refine Or.inl ⟨1, id, rfl, by decide, fun machine index => ?_⟩
    rw [byte, id, toBitVec_ofNat_toNat]
    rfl
  · refine Or.inl ⟨2, id, rfl, by decide, fun machine index => ?_⟩
    rw [← Machine.toNat_half, id, toBitVec_ofNat_toNat]
    rfl
  · refine Or.inl ⟨4, id, rfl, by decide, fun machine index => ?_⟩
    rw [← Machine.toNat_word, id, toBitVec_ofNat_toNat]
    rfl
  · exact Or.inr ⟨rfl, fun _ _ => rfl⟩

theorem store_action (word : Word) :
    (∃ width, (Opcode.store.operation word).action? = some (.store width) ∧
        width ∈ Machine.accessWidths ∧ storeWidth? word.funct3 = some width) ∨
      (Opcode.store.operation word).action? = none ∧ storeWidth? word.funct3 = none := by
  rw [Opcode.operation_store]
  generalize word.funct3 = funct3
  obtain rfl | rfl | rfl | rfl | rfl | rfl | rfl | rfl := funct3_cases funct3
  · exact Or.inl ⟨1, rfl, by decide, rfl⟩
  · exact Or.inl ⟨2, rfl, by decide, rfl⟩
  · exact Or.inl ⟨4, rfl, by decide, rfl⟩
  · exact Or.inl ⟨8, rfl, by decide, rfl⟩
  · exact Or.inr ⟨rfl, rfl⟩
  · exact Or.inr ⟨rfl, rfl⟩
  · exact Or.inr ⟨rfl, rfl⟩
  · exact Or.inr ⟨rfl, rfl⟩

/-! ### Arithmetic -/

/-- A function of the machine on register values is a row of a table of results. -/
def Computes (result : BitVec 64 → BitVec 64 → Option (BitVec 64))
    (combine : UInt64 → UInt64 → UInt64) : Prop :=
  ∀ first second, result first.toBitVec second.toBitVec = some (combine first second).toBitVec

theorem computes_lessSigned :
    Computes (fun first second => some (truth (first.slt second)))
      fun first second => ofBool (lessSigned first second) := by
  intro first second
  rw [toBitVec_ofBool, lessSigned_eq]

theorem computes_lessUnsigned :
    Computes (fun first second => some (truth (first.ult second)))
      fun first second => ofBool (lessUnsigned first second) := by
  intro first second
  rw [toBitVec_ofBool, lessUnsigned_eq]

theorem computes_shiftLeft :
    Computes (fun first second => some (first <<< second.extractLsb 5 0)) shiftLeft :=
  fun first second => congrArg some (toBitVec_shiftLeft first second).symm

theorem computes_shiftRight :
    Computes (fun first second => some (first >>> second.extractLsb 5 0)) shiftRight :=
  fun first second => congrArg some (toBitVec_shiftRight first second).symm

theorem computes_shiftRightArithmetic :
    Computes (fun first second => some (first.sshiftRight' (second.extractLsb 5 0)))
      shiftRightArithmetic :=
  fun first second => congrArg some (toBitVec_shiftRightArithmetic first second).symm

theorem computes_addWord :
    Computes (fun first second =>
      some ((first.extractLsb 31 0 + second.extractLsb 31 0).signExtend 64)) addWord :=
  fun first second => congrArg some (toBitVec_addWord first second).symm

theorem computes_subWord :
    Computes (fun first second =>
      some ((first.extractLsb 31 0 - second.extractLsb 31 0).signExtend 64)) subWord :=
  fun first second => congrArg some (toBitVec_subWord first second).symm

theorem computes_shiftLeftWord :
    Computes (fun first second =>
      some ((first.extractLsb 31 0 <<< second.extractLsb 4 0).signExtend 64)) shiftLeftWord :=
  fun first second => congrArg some (toBitVec_shiftLeftWord first second).symm

theorem computes_shiftRightWord :
    Computes (fun first second =>
      some ((first.extractLsb 31 0 >>> second.extractLsb 4 0).signExtend 64)) shiftRightWord :=
  fun first second => congrArg some (toBitVec_shiftRightWord first second).symm

theorem computes_shiftRightArithmeticWord :
    Computes (fun first second =>
      some (((first.extractLsb 31 0).sshiftRight' (second.extractLsb 4 0)).signExtend 64))
      shiftRightArithmeticWord :=
  fun first second => congrArg some (toBitVec_shiftRightArithmeticWord first second).symm

/-! ### Arithmetic on registers -/

/-- A result of the reference for two registers has its function on the machine, or neither has
one. -/
def RegisterRow (action? : Option Action)
    (result : BitVec 64 → BitVec 64 → Option (BitVec 64)) : Prop :=
  (∃ combine, action? = some (.register combine) ∧ Computes result combine) ∨
    action? = none ∧ ∀ first second, result first second = none

theorem op_eq_none {funct7 : BitVec 7} (plain : funct7 ≠ 0) (alternate : funct7 ≠ 0b0100000)
    (funct3 : BitVec 3) (first second : BitVec 64) : op? funct7 funct3 first second = none := by
  unfold op?
  split <;> first | rfl | contradiction

theorem op32_eq_none {funct7 : BitVec 7} (plain : funct7 ≠ 0) (alternate : funct7 ≠ 0b0100000)
    (funct3 : BitVec 3) (first second : BitVec 64) : op32? funct7 funct3 first second = none := by
  unfold op32?
  split <;> first | rfl | contradiction

/-- Two operations for each `funct3`, or none, and nothing beside them: the rows of the two values
of `funct7` that count are all there is to compare. -/
theorem registerRow_alternate {table : Opcode.Table}
    {sum difference logical arithmetic : Operation}
    {result : BitVec 7 → BitVec 3 → BitVec 64 → BitVec 64 → Option (BitVec 64)}
    (plain : ∀ funct3 : BitVec 3, RegisterRow
      (Refinement.alternate sum difference logical arithmetic 0
        ((table.get funct3.toFin).getD .invalid)).settled.action?
      (result 0 funct3))
    (other : ∀ funct3 : BitVec 3, RegisterRow
      (Refinement.alternate sum difference logical arithmetic 0b0100000
        ((table.get funct3.toFin).getD .invalid)).settled.action?
      (result 0b0100000 funct3))
    (reserved : ∀ funct7, funct7 ≠ 0 → funct7 ≠ 0b0100000 → ∀ funct3 first second,
      result funct7 funct3 first second = none)
    (funct7 : BitVec 7) (funct3 : BitVec 3) :
    RegisterRow
      (Refinement.alternate sum difference logical arithmetic funct7
        ((table.get funct3.toFin).getD .invalid)).settled.action?
      (result funct7 funct3) := by
  by_cases zero : funct7 = 0
  · subst zero
    exact plain funct3
  · by_cases alternate : funct7 = 0b0100000
    · subst alternate
      exact other funct3
    · refine Or.inr ⟨?_, reserved funct7 zero alternate funct3⟩
      rw [Refinement.alternate_of_reserved zero alternate]
      rfl

theorem op_row (word : Word) :
    RegisterRow (Opcode.op.operation word).action? (op? word.funct7 word.funct3) := by
  rw [Opcode.operation_op]
  refine registerRow_alternate (fun funct3 => ?_) (fun funct3 => ?_)
    (fun _ plain alternate => op_eq_none plain alternate) _ _
  · obtain rfl | rfl | rfl | rfl | rfl | rfl | rfl | rfl := funct3_cases funct3
    · exact Or.inl ⟨(· + ·), rfl, fun _ _ => rfl⟩
    · exact Or.inl ⟨_, rfl, computes_shiftLeft⟩
    · exact Or.inl ⟨_, rfl, computes_lessSigned⟩
    · exact Or.inl ⟨_, rfl, computes_lessUnsigned⟩
    · exact Or.inl ⟨(· ^^^ ·), rfl, fun _ _ => rfl⟩
    · exact Or.inl ⟨_, rfl, computes_shiftRight⟩
    · exact Or.inl ⟨(· ||| ·), rfl, fun _ _ => rfl⟩
    · exact Or.inl ⟨(· &&& ·), rfl, fun _ _ => rfl⟩
  · obtain rfl | rfl | rfl | rfl | rfl | rfl | rfl | rfl := funct3_cases funct3
    · exact Or.inl ⟨(· - ·), rfl, fun _ _ => rfl⟩
    · exact Or.inr ⟨rfl, fun _ _ => rfl⟩
    · exact Or.inr ⟨rfl, fun _ _ => rfl⟩
    · exact Or.inr ⟨rfl, fun _ _ => rfl⟩
    · exact Or.inr ⟨rfl, fun _ _ => rfl⟩
    · exact Or.inl ⟨_, rfl, computes_shiftRightArithmetic⟩
    · exact Or.inr ⟨rfl, fun _ _ => rfl⟩
    · exact Or.inr ⟨rfl, fun _ _ => rfl⟩

theorem op32_row (word : Word) :
    RegisterRow (Opcode.op32.operation word).action? (op32? word.funct7 word.funct3) := by
  rw [Opcode.operation_op32]
  refine registerRow_alternate (fun funct3 => ?_) (fun funct3 => ?_)
    (fun _ plain alternate => op32_eq_none plain alternate) _ _
  · obtain rfl | rfl | rfl | rfl | rfl | rfl | rfl | rfl := funct3_cases funct3
    · exact Or.inl ⟨_, rfl, computes_addWord⟩
    · exact Or.inl ⟨_, rfl, computes_shiftLeftWord⟩
    · exact Or.inr ⟨rfl, fun _ _ => rfl⟩
    · exact Or.inr ⟨rfl, fun _ _ => rfl⟩
    · exact Or.inr ⟨rfl, fun _ _ => rfl⟩
    · exact Or.inl ⟨_, rfl, computes_shiftRightWord⟩
    · exact Or.inr ⟨rfl, fun _ _ => rfl⟩
    · exact Or.inr ⟨rfl, fun _ _ => rfl⟩
  · obtain rfl | rfl | rfl | rfl | rfl | rfl | rfl | rfl := funct3_cases funct3
    · exact Or.inl ⟨_, rfl, computes_subWord⟩
    · exact Or.inr ⟨rfl, fun _ _ => rfl⟩
    · exact Or.inr ⟨rfl, fun _ _ => rfl⟩
    · exact Or.inr ⟨rfl, fun _ _ => rfl⟩
    · exact Or.inr ⟨rfl, fun _ _ => rfl⟩
    · exact Or.inl ⟨_, rfl, computes_shiftRightArithmeticWord⟩
    · exact Or.inr ⟨rfl, fun _ _ => rfl⟩
    · exact Or.inr ⟨rfl, fun _ _ => rfl⟩

/-! ### Arithmetic with an immediate -/

/-- A result of the reference for a register has its function on the machine, which takes the third
operand as its second argument, or neither has one. -/
def ImmediateRow (action? : Option Action) (third : Int64)
    (result : BitVec 64 → Option (BitVec 64)) : Prop :=
  (∃ combine, action? = some (.immediate combine) ∧
      ∀ first : UInt64, result first.toBitVec = some (combine first third.toUInt64).toBitVec) ∨
    action? = none ∧ ∀ first, result first = none

theorem opImm_shift_row {word : Word} (shift : Opcode.ShiftsBy word) :
    ImmediateRow (Opcode.opImm.operation word).action? (Int64.ofNat word.shamt6.toNat)
      fun first => opImm? word.funct6 word.funct3 word.shamt6 first (immediateI word) := by
  have amount : (Int64.ofNat word.shamt6.toNat).toUInt64.toBitVec.extractLsb 5 0 = word.shamt6 :=
    extractLsb'_ofNat_toNat word.shamt6 (by decide)
  rw [Opcode.operation_opImm]
  generalize Int64.ofNat word.shamt6.toNat = third at amount
  rw [← amount]
  generalize word.funct6 = funct6
  obtain one | five := shift
  · rw [one]
    by_cases plain : funct6 = 0
    · subst plain
      exact Or.inl ⟨_, rfl, fun first => computes_shiftLeft first third.toUInt64⟩
    · refine Or.inr ⟨?_, fun first => if_neg plain⟩
      show (Refinement.doublewordShift funct6 .slli).settled.action? = none
      rw [Refinement.doublewordShift_slli plain]
      rfl
  · rw [five]
    by_cases plain : funct6 = 0
    · subst plain
      exact Or.inl ⟨_, rfl, fun first => computes_shiftRight first third.toUInt64⟩
    · by_cases alternate : funct6 = 0b010000
      · subst alternate
        exact Or.inl ⟨_, rfl, fun first => computes_shiftRightArithmetic first third.toUInt64⟩
      · refine Or.inr ⟨?_, fun first => (if_neg plain).trans (if_neg alternate)⟩
        show (Refinement.doublewordShift funct6 .srli).settled.action? = none
        rw [Refinement.doublewordShift_srli plain alternate]
        rfl

theorem opImm_plain_row {word : Word} (plain : ¬Opcode.ShiftsBy word) :
    ImmediateRow (Opcode.opImm.operation word).action? (Word.signedOperand word.immediateI)
      fun first => opImm? word.funct6 word.funct3 word.shamt6 first (immediateI word) := by
  have immediate : immediateI word = (Word.signedOperand word.immediateI).toUInt64.toBitVec := rfl
  rw [Opcode.operation_opImm, immediate]
  generalize Word.signedOperand word.immediateI = third
  generalize word.funct6 = funct6
  generalize word.shamt6 = shamt
  unfold Opcode.ShiftsBy at plain
  generalize word.funct3 = funct3 at plain
  obtain rfl | rfl | rfl | rfl | rfl | rfl | rfl | rfl := funct3_cases funct3
  · exact Or.inl ⟨(· + ·), rfl, fun _ => rfl⟩
  · exact absurd (Or.inl rfl) plain
  · exact Or.inl ⟨_, rfl, fun first => computes_lessSigned first third.toUInt64⟩
  · exact Or.inl ⟨_, rfl, fun first => computes_lessUnsigned first third.toUInt64⟩
  · exact Or.inl ⟨(· ^^^ ·), rfl, fun _ => rfl⟩
  · exact absurd (Or.inr rfl) plain
  · exact Or.inl ⟨(· ||| ·), rfl, fun _ => rfl⟩
  · exact Or.inl ⟨(· &&& ·), rfl, fun _ => rfl⟩

theorem opImm_row (word : Word) :
    ImmediateRow (Opcode.opImm.operation word).action? (Opcode.opImm.operands word).third
      fun first => opImm? word.funct6 word.funct3 word.shamt6 first (immediateI word) := by
  rw [Opcode.operands_opImm]
  dsimp only
  by_cases shift : Opcode.ShiftsBy word
  · rw [if_pos shift]
    exact opImm_shift_row shift
  · rw [if_neg shift]
    exact opImm_plain_row shift

theorem opImm32_shift_row {word : Word} (shift : Opcode.ShiftsBy word) :
    ImmediateRow (Opcode.opImm32.operation word).action? (Int64.ofNat word.shamt5.toNat)
      fun first => opImm32? word.funct7 word.funct3 word.shamt5 first (immediateI word) := by
  have amount : (Int64.ofNat word.shamt5.toNat).toUInt64.toBitVec.extractLsb 4 0 = word.shamt5 :=
    extractLsb'_ofNat_toNat word.shamt5 (by decide)
  rw [Opcode.operation_opImm32]
  generalize Int64.ofNat word.shamt5.toNat = third at amount
  rw [← amount]
  generalize word.funct7 = funct7
  obtain one | five := shift
  · rw [one]
    by_cases plain : funct7 = 0
    · subst plain
      exact Or.inl ⟨_, rfl, fun first => computes_shiftLeftWord first third.toUInt64⟩
    · refine Or.inr ⟨?_, fun first => if_neg plain⟩
      show (Refinement.wordShift funct7 .slliw).settled.action? = none
      rw [Refinement.wordShift_slliw plain]
      rfl
  · rw [five]
    by_cases plain : funct7 = 0
    · subst plain
      exact Or.inl ⟨_, rfl, fun first => computes_shiftRightWord first third.toUInt64⟩
    · by_cases alternate : funct7 = 0b0100000
      · subst alternate
        exact Or.inl ⟨_, rfl, fun first =>
          computes_shiftRightArithmeticWord first third.toUInt64⟩
      · refine Or.inr ⟨?_, fun first => (if_neg plain).trans (if_neg alternate)⟩
        show (Refinement.wordShift funct7 .srliw).settled.action? = none
        rw [Refinement.wordShift_srliw plain alternate]
        rfl

theorem opImm32_plain_row {word : Word} (plain : ¬Opcode.ShiftsBy word) :
    ImmediateRow (Opcode.opImm32.operation word).action? (Word.signedOperand word.immediateI)
      fun first => opImm32? word.funct7 word.funct3 word.shamt5 first (immediateI word) := by
  have immediate : immediateI word = (Word.signedOperand word.immediateI).toUInt64.toBitVec := rfl
  rw [Opcode.operation_opImm32, immediate]
  generalize Word.signedOperand word.immediateI = third
  generalize word.funct7 = funct7
  generalize word.shamt5 = shamt
  unfold Opcode.ShiftsBy at plain
  generalize word.funct3 = funct3 at plain
  obtain rfl | rfl | rfl | rfl | rfl | rfl | rfl | rfl := funct3_cases funct3
  · exact Or.inl ⟨_, rfl, fun first => computes_addWord first third.toUInt64⟩
  · exact absurd (Or.inl rfl) plain
  · exact Or.inr ⟨rfl, fun _ => rfl⟩
  · exact Or.inr ⟨rfl, fun _ => rfl⟩
  · exact Or.inr ⟨rfl, fun _ => rfl⟩
  · exact absurd (Or.inr rfl) plain
  · exact Or.inr ⟨rfl, fun _ => rfl⟩
  · exact Or.inr ⟨rfl, fun _ => rfl⟩

theorem opImm32_row (word : Word) :
    ImmediateRow (Opcode.opImm32.operation word).action? (Opcode.opImm32.operands word).third
      fun first => opImm32? word.funct7 word.funct3 word.shamt5 first (immediateI word) := by
  rw [Opcode.operands_opImm32]
  dsimp only
  by_cases shift : Opcode.ShiftsBy word
  · rw [if_pos shift]
    exact opImm32_shift_row shift
  · rw [if_neg shift]
    exact opImm32_plain_row shift

end Hart
