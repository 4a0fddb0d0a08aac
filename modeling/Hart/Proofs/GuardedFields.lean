/-
This file cuts words into their fields with guards. Every field is cut out by a shift and a mask
before the opcode is known, and an immediate is put together by more shifts and extended by moving
it up to the sign and back.

No amount reaches the width of a word, so no guard fails, and what comes out are the runs of bits
that the definitions without guards cut out at once.
-/

import Hart.Proofs.Guards
import Hart.Proofs.Decoding

namespace Hart

/-! ### Runs of bits by shifts and masks -/

/-- A word whose lowest bits are one. -/
def Word.mask (count : Nat) : Word :=
  BitVec.ofNat 32 (2 ^ count - 1)

theorem Word.getLsbD_mask {count : Nat} (fits : count ≤ 32) (index : Nat) :
    (mask count).getLsbD index = decide (index < count) := by
  rw [mask, BitVec.getLsbD_ofNat, Nat.testBit_two_pow_sub_one]
  by_cases low : index < count
  · simp [low, Nat.lt_of_lt_of_le low fits]
  · simp [low]

/-- A shift and a mask cut out a run of bits. -/
theorem Word.shiftRight_and_mask (word : Word) (start : Nat) {count : Nat} (fits : count ≤ 32) :
    (word >>> start) &&& mask count = (word.extractLsb' start count).setWidth 32 := by
  apply BitVec.eq_of_getLsbD_eq
  intro index bound
  rw [BitVec.getLsbD_and, BitVec.getLsbD_ushiftRight, getLsbD_mask fits, BitVec.getLsbD_setWidth,
    BitVec.getLsbD_extractLsb', decide_eq_true bound, Bool.true_and, Bool.and_comm]

/-- What is left without the lowest twelve bits. -/
theorem Word.and_not_mask (word : Word) : word &&& ~~~mask 12 = word.immediateU := by
  unfold immediateU upper
  apply BitVec.eq_of_getLsbD_eq
  intro index bound
  rw [BitVec.getLsbD_and, BitVec.getLsbD_not, getLsbD_mask (by decide), BitVec.getLsbD_append]
  by_cases low : index < 12
  · simp [low]
  · have above : index - 12 < 20 := by omega
    have place : 12 + (index - 12) = index := by omega
    rw [if_neg low, BitVec.getLsbD_extractLsb', decide_eq_true above, place]
    simp [low, bound]

/-- Bits that are moved above others make one run with them. -/
theorem shiftLeft_or_setWidth {upper lower : Nat} (first : BitVec upper) (second : BitVec lower)
    (fits : upper + lower ≤ 32) :
    (first.setWidth 32 <<< lower) ||| second.setWidth 32 = (first ++ second).setWidth 32 := by
  apply BitVec.eq_of_getLsbD_eq
  intro index bound
  rw [BitVec.getLsbD_or, BitVec.getLsbD_shiftLeft, BitVec.getLsbD_setWidth,
    BitVec.getLsbD_setWidth, BitVec.getLsbD_setWidth, BitVec.getLsbD_append]
  by_cases low : index < lower
  · simp [low, bound]
  · have beyond : second.getLsbD index = false := BitVec.getLsbD_of_ge _ _ (Nat.not_lt.mp low)
    have less : index - lower < 32 := by omega
    simp [low, bound, beyond, less]

/-- The same where the bits stand above a gap. -/
theorem shiftLeft_or_shiftLeft {upper lower : Nat} (first : BitVec upper) (second : BitVec lower)
    (place : Nat) (fits : upper + lower ≤ 32) :
    (first.setWidth 32 <<< (lower + place)) ||| (second.setWidth 32 <<< place) =
      (first ++ second).setWidth 32 <<< place := by
  rw [BitVec.shiftLeft_add, ← BitVec.shiftLeft_or_distrib, shiftLeft_or_setWidth _ _ fits]

/-- A gap at the bottom is a run of zeros. -/
theorem setWidth_shiftLeft {upper : Nat} (first : BitVec upper) (place : Nat)
    (fits : upper + place ≤ 32) :
    first.setWidth 32 <<< place = (first ++ BitVec.ofNat place 0).setWidth 32 := by
  rw [← shiftLeft_or_setWidth _ _ fits]
  simp

/-- Bits that are moved up to the sign and back are extended by their own sign. -/
theorem sshiftRight_shiftLeft {width : Nat} (field : BitVec width) (amount : Nat)
    (whole : width + amount = 32) (positive : 0 < width) :
    (field.setWidth 32 <<< amount).sshiftRight amount = field.signExtend 32 := by
  have sign : (field.setWidth 32 <<< amount).msb = field.msb := by
    have place : 31 - amount = width - 1 := by omega
    rw [BitVec.msb_eq_getLsbD_last, BitVec.msb_eq_getLsbD_last, BitVec.getLsbD_shiftLeft,
      BitVec.getLsbD_setWidth, place]
    simp [show ¬31 < amount by omega, show width - 1 < 32 by omega]
  apply BitVec.eq_of_getLsbD_eq
  intro index bound
  rw [BitVec.getLsbD_sshiftRight, sign, BitVec.getLsbD_signExtend]
  by_cases inside : index < width
  · have below : amount + index < 32 := by omega
    have place : amount + index - amount = index := by omega
    rw [if_pos below, if_pos inside, BitVec.getLsbD_shiftLeft, BitVec.getLsbD_setWidth, place]
    simp [bound, below]
  · have above : ¬amount + index < 32 := by omega
    rw [if_neg above, if_neg inside]
    simp [bound]

/-- Extending in two steps is extending at once. -/
theorem signExtend_signExtend {width : Nat} (field : BitVec width) (fits : width ≤ 32) :
    (field.signExtend 32).signExtend 64 = field.signExtend 64 := by
  apply BitVec.eq_of_toInt_eq
  rw [BitVec.toInt_signExtend_of_le (by decide), BitVec.toInt_signExtend_of_le fits,
    BitVec.toInt_signExtend_of_le (Nat.le_trans fits (by decide))]

namespace Guarded

/-! ### Fields -/

/-- A run of bits cut out of a word. -/
def field? (word : Word) (start count : Nat) : Option (BitVec 32) := do
  let moved ← shiftRight? word start
  return moved &&& Word.mask count

/-- A run of bits kept in a byte. -/
def byteField? (word : Word) (start count : Nat) : Option (BitVec 8) := do
  let field ← field? word start count
  return field.setWidth 8

/-- A run of bits moved to a place of an immediate. -/
def piece? (word : Word) (start count place : Nat) : Option (BitVec 32) := do
  let field ← field? word start count
  shiftLeft? field place

/-- An immediate extended by its sign, which stands this far below the highest bit. -/
def extended? (immediate : BitVec 32) (amount : Nat) : Option (BitVec 32) := do
  let moved ← shiftLeft? immediate amount
  shiftRightArithmetic? moved amount

/-- The immediate of format I. -/
def immediateI? (word : Word) : Option (BitVec 32) := do
  let immediate ← field? word 20 12
  extended? immediate 20

/-- The immediate of format S. -/
def immediateS? (word : Word) : Option (BitVec 32) := do
  let upper ← piece? word 25 7 5
  let lower ← field? word 7 5
  extended? (upper ||| lower) 20

/-- The branch offset of format B. -/
def immediateB? (word : Word) : Option (BitVec 32) := do
  let sign ← piece? word 31 1 12
  let middle ← piece? word 25 6 5
  let lower ← piece? word 8 4 1
  let upper ← piece? word 7 1 11
  extended? (sign ||| upper ||| middle ||| lower) 19

/-- The jump offset of format J. -/
def immediateJ? (word : Word) : Option (BitVec 32) := do
  let sign ← piece? word 31 1 20
  let lower ← piece? word 21 10 1
  let middle ← piece? word 20 1 11
  let upper ← piece? word 12 8 12
  extended? (sign ||| upper ||| middle ||| lower) 11

/-- All fields of a word, whatever its format. -/
structure Fields where
  word : Word
  major : BitVec 8
  rd : BitVec 8
  funct3 : BitVec 8
  rs1 : BitVec 8
  rs2 : BitVec 8
  funct7 : BitVec 8
  funct6 : BitVec 8
  immediateI : BitVec 32
  immediateS : BitVec 32
  immediateB : BitVec 32
  immediateU : BitVec 32
  immediateJ : BitVec 32
  shamt5 : BitVec 8
  shamt6 : BitVec 8

/-- The fields as they are cut out of a word before its opcode is known. -/
def fields? (word : Word) : Option Fields := do
  let major ← byteField? word 2 5
  let rd ← byteField? word 7 5
  let funct3 ← byteField? word 12 3
  let rs1 ← byteField? word 15 5
  let rs2 ← byteField? word 20 5
  let funct7 ← byteField? word 25 7
  let funct6 ← byteField? word 26 6
  let immediateI ← immediateI? word
  let immediateS ← immediateS? word
  let immediateB ← immediateB? word
  let immediateU := word &&& ~~~Word.mask 12
  let immediateJ ← immediateJ? word
  let shamt5 ← byteField? word 20 5
  let shamt6 ← byteField? word 20 6
  return {
    word, major, rd, funct3, rs1, rs2, funct7, funct6,
    immediateI, immediateS, immediateB, immediateU, immediateJ, shamt5, shamt6 }

/-- The fields as the runs of bits that they are. -/
def Fields.of (word : Word) : Fields where
  word
  major := word.major.setWidth 8
  rd := word.rd.setWidth 8
  funct3 := word.funct3.setWidth 8
  rs1 := word.rs1.setWidth 8
  rs2 := word.rs2.setWidth 8
  funct7 := word.funct7.setWidth 8
  funct6 := word.funct6.setWidth 8
  immediateI := word.immediateI.signExtend 32
  immediateS := word.immediateS.signExtend 32
  immediateB := word.immediateB.signExtend 32
  immediateU := word.immediateU
  immediateJ := word.immediateJ.signExtend 32
  shamt5 := word.shamt5.setWidth 8
  shamt6 := word.shamt6.setWidth 8

section

variable (word : Word)

theorem field?_eq {start count : Nat} (inside : start < 32) (fits : count ≤ 32) :
    field? word start count = some ((word.extractLsb' start count).setWidth 32) := by
  unfold field?
  rw [shiftRight?_of_lt word inside, ← word.shiftRight_and_mask start fits]
  rfl

theorem byteField?_eq {start count : Nat} (inside : start < 32) (fits : count ≤ 32) :
    byteField? word start count = some ((word.extractLsb' start count).setWidth 8) := by
  unfold byteField?
  rw [field?_eq word inside fits, ← BitVec.setWidth_setWidth_of_le _ (by decide : 8 ≤ 32)]
  rfl

theorem piece?_eq {start count place : Nat} (inside : start < 32) (fits : count ≤ 32)
    (less : place < 32) :
    piece? word start count place =
      some ((word.extractLsb' start count).setWidth 32 <<< place) := by
  unfold piece?
  rw [field?_eq word inside fits]
  exact shiftLeft?_of_lt _ less

theorem extended?_eq {width : Nat} (field : BitVec width) (amount : Nat)
    (whole : width + amount = 32) (positive : 0 < width) :
    extended? (field.setWidth 32) amount = some (field.signExtend 32) := by
  have less : amount < 32 := by omega
  unfold extended?
  rw [shiftLeft?_of_lt _ less, ← sshiftRight_shiftLeft field amount whole positive]
  exact shiftRightArithmetic?_of_lt _ less

theorem immediateI?_eq : immediateI? word = some (word.immediateI.signExtend 32) := by
  unfold immediateI?
  rw [bind_of_eq_some (field?_eq word (by decide) (by decide))]
  exact extended?_eq word.immediateI 20 rfl (by decide)

theorem immediateS?_eq : immediateS? word = some (word.immediateS.signExtend 32) := by
  unfold immediateS?
  rw [bind_of_eq_some (piece?_eq word (by decide) (by decide) (by decide)),
    bind_of_eq_some (field?_eq word (by decide) (by decide)),
    shiftLeft_or_setWidth _ _ (by decide)]
  exact extended?_eq word.immediateS 20 rfl (by decide)

theorem immediateB?_eq : immediateB? word = some (word.immediateB.signExtend 32) := by
  unfold immediateB?
  rw [bind_of_eq_some (piece?_eq word (by decide) (by decide) (by decide)),
    bind_of_eq_some (piece?_eq word (by decide) (by decide) (by decide)),
    bind_of_eq_some (piece?_eq word (by decide) (by decide) (by decide)),
    bind_of_eq_some (piece?_eq word (by decide) (by decide) (by decide)),
    shiftLeft_or_shiftLeft _ _ 11 (by decide), shiftLeft_or_shiftLeft _ _ 5 (by decide),
    shiftLeft_or_shiftLeft _ _ 1 (by decide), setWidth_shiftLeft _ 1 (by decide)]
  exact extended?_eq word.immediateB 19 rfl (by decide)

theorem immediateJ?_eq : immediateJ? word = some (word.immediateJ.signExtend 32) := by
  unfold immediateJ?
  rw [bind_of_eq_some (piece?_eq word (by decide) (by decide) (by decide)),
    bind_of_eq_some (piece?_eq word (by decide) (by decide) (by decide)),
    bind_of_eq_some (piece?_eq word (by decide) (by decide) (by decide)),
    bind_of_eq_some (piece?_eq word (by decide) (by decide) (by decide)),
    shiftLeft_or_shiftLeft _ _ 12 (by decide), shiftLeft_or_shiftLeft _ _ 11 (by decide),
    shiftLeft_or_shiftLeft _ _ 1 (by decide), setWidth_shiftLeft _ 1 (by decide)]
  exact extended?_eq word.immediateJ 11 rfl (by decide)

theorem fields?_eq : fields? word = some (Fields.of word) := by
  unfold fields?
  simp only [byteField?_eq word (by decide : 2 < 32) (by decide : 5 ≤ 32),
    byteField?_eq word (by decide : 7 < 32) (by decide : 5 ≤ 32),
    byteField?_eq word (by decide : 12 < 32) (by decide : 3 ≤ 32),
    byteField?_eq word (by decide : 15 < 32) (by decide : 5 ≤ 32),
    byteField?_eq word (by decide : 20 < 32) (by decide : 5 ≤ 32),
    byteField?_eq word (by decide : 25 < 32) (by decide : 7 ≤ 32),
    byteField?_eq word (by decide : 26 < 32) (by decide : 6 ≤ 32),
    byteField?_eq word (by decide : 20 < 32) (by decide : 6 ≤ 32),
    immediateI?_eq, immediateS?_eq, immediateB?_eq, immediateJ?_eq, word.and_not_mask]
  rfl

end

end Guarded

end Hart
