/-
This file reads the arithmetic of the machine as arithmetic on bit vectors, in the words of the
reference. The machine computes with integers of fixed width and converts between them; every
conversion is a cut or an extension of the bits, and a shift by an amount of the full width looks at
no more bits of it than the reference does.
-/

import Hart.Machine.Arithmetic
import Hart.Proofs.Reference

namespace Hart.Arithmetic

open Reference (truth)

/-! ### Conversions -/

theorem toBitVec_ofBool (holds : Bool) : (ofBool holds).toBitVec = truth holds := by
  cases holds <;> rfl

theorem toBitVec_signExtend8 (value : UInt64) :
    (signExtend8 value).toBitVec = (value.toBitVec.extractLsb 7 0).signExtend 64 := by
  rfl

theorem toBitVec_signExtend16 (value : UInt64) :
    (signExtend16 value).toBitVec = (value.toBitVec.extractLsb 15 0).signExtend 64 := by
  rfl

theorem toBitVec_signExtend32 (value : UInt64) :
    (signExtend32 value).toBitVec = (value.toBitVec.extractLsb 31 0).signExtend 64 := by
  rfl

/-! ### Comparisons -/

theorem lessSigned_eq (first second : UInt64) :
    lessSigned first second = first.toBitVec.slt second.toBitVec := by
  rw [Bool.eq_iff_iff]
  exact decide_eq_true_iff.trans Int64.lt_iff_toBitVec_slt

theorem lessUnsigned_eq (first second : UInt64) :
    lessUnsigned first second = first.toBitVec.ult second.toBitVec := by
  rw [Bool.eq_iff_iff, BitVec.ult_iff_lt]
  exact decide_eq_true_iff.trans UInt64.lt_iff_toBitVec_lt

theorem beq_eq (first second : UInt64) :
    (first == second) = (first.toBitVec == second.toBitVec) := by
  rw [Bool.eq_iff_iff, beq_iff_eq, beq_iff_eq]
  exact UInt64.toBitVec_inj.symm

/-! ### Shifts -/

theorem toNat_smod_64 (amount : BitVec 64) : (amount.smod 64).toNat = amount.toNat % 64 := by
  have signed : (amount.smod 64).toInt = amount.toInt % 64 := by
    rw [BitVec.toInt_smod]
    exact Int.fmod_eq_emod_of_nonneg _ (by decide)
  rw [BitVec.toInt_eq_toNat_cond, BitVec.toInt_eq_toNat_cond] at signed
  omega

theorem toNat_smod_32 (amount : BitVec 32) : (amount.smod 32).toNat = amount.toNat % 32 := by
  have signed : (amount.smod 32).toInt = amount.toInt % 32 := by
    rw [BitVec.toInt_smod]
    exact Int.fmod_eq_emod_of_nonneg _ (by decide)
  rw [BitVec.toInt_eq_toNat_cond, BitVec.toInt_eq_toNat_cond] at signed
  omega

theorem toBitVec_shiftLeft (value amount : UInt64) :
    (shiftLeft value amount).toBitVec = value.toBitVec <<< amount.toBitVec.extractLsb 5 0 := by
  show value.toBitVec <<< (amount.toBitVec % 64) = _
  rw [BitVec.shiftLeft_eq', BitVec.shiftLeft_eq', BitVec.toNat_umod, BitVec.extractLsb_toNat]
  rfl

theorem toBitVec_shiftRight (value amount : UInt64) :
    (shiftRight value amount).toBitVec = value.toBitVec >>> amount.toBitVec.extractLsb 5 0 := by
  show value.toBitVec >>> (amount.toBitVec % 64) = _
  rw [BitVec.ushiftRight_eq', BitVec.ushiftRight_eq', BitVec.toNat_umod, BitVec.extractLsb_toNat]
  rfl

theorem toBitVec_shiftRightArithmetic (value amount : UInt64) :
    (shiftRightArithmetic value amount).toBitVec =
      value.toBitVec.sshiftRight' (amount.toBitVec.extractLsb 5 0) := by
  show value.toBitVec.sshiftRight (amount.toBitVec.smod 64).toNat = _
  rw [BitVec.sshiftRight', toNat_smod_64, BitVec.extractLsb_toNat]
  rfl

/-! ### Word operations -/

theorem extractLsb_add (first second : BitVec 64) :
    (first + second).extractLsb 31 0 = first.extractLsb 31 0 + second.extractLsb 31 0 := by
  apply BitVec.eq_of_toNat_eq
  rw [BitVec.toNat_add, BitVec.extractLsb_toNat, BitVec.extractLsb_toNat, BitVec.extractLsb_toNat,
    BitVec.toNat_add]
  omega

theorem extractLsb_sub (first second : BitVec 64) :
    (first - second).extractLsb 31 0 = first.extractLsb 31 0 - second.extractLsb 31 0 := by
  apply BitVec.eq_of_toNat_eq
  rw [BitVec.toNat_sub, BitVec.extractLsb_toNat, BitVec.extractLsb_toNat, BitVec.extractLsb_toNat,
    BitVec.toNat_sub]
  omega

/-- A shift of a word looks at the low five bits of the low half of its amount. -/
theorem toNat_wordAmount (amount : BitVec 64) :
    (amount.extractLsb 31 0).toNat % 32 = (amount.extractLsb 4 0).toNat := by
  rw [BitVec.extractLsb_toNat, BitVec.extractLsb_toNat]
  exact Nat.mod_mod_of_dvd _ (by decide)

theorem toBitVec_addWord (first second : UInt64) :
    (addWord first second).toBitVec =
      (first.toBitVec.extractLsb 31 0 + second.toBitVec.extractLsb 31 0).signExtend 64 := by
  rw [← extractLsb_add]
  exact toBitVec_signExtend32 (first + second)

theorem toBitVec_subWord (first second : UInt64) :
    (subWord first second).toBitVec =
      (first.toBitVec.extractLsb 31 0 - second.toBitVec.extractLsb 31 0).signExtend 64 := by
  rw [← extractLsb_sub]
  exact toBitVec_signExtend32 (first - second)

theorem toBitVec_shiftLeftWord (value amount : UInt64) :
    (shiftLeftWord value amount).toBitVec =
      (value.toBitVec.extractLsb 31 0 <<< amount.toBitVec.extractLsb 4 0).signExtend 64 := by
  show (value.toBitVec.extractLsb 31 0 <<< (amount.toBitVec.extractLsb 31 0 % 32)).signExtend 64 = _
  rw [BitVec.shiftLeft_eq', BitVec.shiftLeft_eq', BitVec.toNat_umod, ← toNat_wordAmount]
  rfl

theorem toBitVec_shiftRightWord (value amount : UInt64) :
    (shiftRightWord value amount).toBitVec =
      (value.toBitVec.extractLsb 31 0 >>> amount.toBitVec.extractLsb 4 0).signExtend 64 := by
  show (value.toBitVec.extractLsb 31 0 >>> (amount.toBitVec.extractLsb 31 0 % 32)).signExtend 64 = _
  rw [BitVec.ushiftRight_eq', BitVec.ushiftRight_eq', BitVec.toNat_umod, ← toNat_wordAmount]
  rfl

theorem toBitVec_shiftRightArithmeticWord (value amount : UInt64) :
    (shiftRightArithmeticWord value amount).toBitVec =
      ((value.toBitVec.extractLsb 31 0).sshiftRight'
        (amount.toBitVec.extractLsb 4 0)).signExtend 64 := by
  show ((value.toBitVec.extractLsb 31 0).sshiftRight
    ((amount.toBitVec.extractLsb 31 0).smod 32).toNat).signExtend 64 = _
  rw [BitVec.sshiftRight', toNat_smod_32, ← toNat_wordAmount]

end Hart.Arithmetic
