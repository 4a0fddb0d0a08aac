/-
This file shows a machine to the reference. The reference sees the program counter, the registers
with register zero as zero, the bytes of memory and what the console received. Nothing else is in a
machine: two machines that look alike and both hold zero in register zero are the same.

What the machine reads from memory and writes to it are lists of bytes and the numbers that they
write. The reference puts bytes side by side instead, and both come to the same.
-/

import Hart.Machine.Step
import Hart.Proofs.Reference

namespace Hart

open Bytes (byteAt slice littleEndian ofNumber overwrite)

/-- What the reference sees of a delivery. -/
def Delivery.view (delivery : Delivery) : BitVec 8 × BitVec 64 :=
  (delivery.byte.toBitVec, delivery.address.toBitVec)

/-- What the reference sees of a machine. -/
def Machine.view (machine : Machine) : Reference.State where
  pc := machine.pc.toBitVec
  register index := if index = 0 then 0 else (machine.registers.read index.toFin).toBitVec
  size := machine.capacity
  byte index := (byteAt machine.memory index).toBitVec
  console := machine.sink.map fun sink => sink.received.toList.map Delivery.view

/-- What the reference sees of the end of a step. -/
def Outcome.ending : Outcome → Reference.Ending
  | .continued => .retired
  | .trapped (.illegalInstruction _ _) => .illegal
  | .trapped (.memoryFault address width) => .fault address.toBitVec width

/-! ### Nothing is out of sight -/

theorem Delivery.eq_of_view {first second : Delivery} (same : first.view = second.view) :
    first = second := by
  obtain ⟨bytes, addresses⟩ := Prod.mk.inj same
  cases first
  cases second
  rw [Delivery.mk.injEq]
  exact ⟨UInt8.toBitVec_inj.mp bytes, UInt64.toBitVec_inj.mp addresses⟩

theorem Sink.eq_of_view {first second : Sink}
    (same : first.received.toList.map Delivery.view = second.received.toList.map Delivery.view) :
    first = second := by
  cases first
  cases second
  rw [Sink.mk.injEq]
  exact Array.toList_inj.mp ((List.map_inj_right fun _ _ => Delivery.eq_of_view).mp same)

theorem Registers.eq_of_read {first second : Registers}
    (same : ∀ index, first.read index = second.read index) : first = second :=
  Vector.ext fun index bound => same ⟨index, bound⟩

/-- Machines that hold zero in register zero are told apart by what the reference sees of them. -/
theorem Machine.eq_of_view {first second : Machine} (zero : first.registers.read 0 = 0)
    (zero' : second.registers.read 0 = 0) (same : first.view = second.view) : first = second := by
  obtain ⟨pcs, files, sizes, bytes, consoles⟩ := Reference.State.mk.inj same
  cases first
  cases second
  rw [Machine.mk.injEq]
  refine ⟨Int64.toBitVec_inj.mp pcs, Registers.eq_of_read fun index => ?_,
    Bytes.buffer_ext sizes fun index => UInt8.toBitVec_inj.mp (congrFun bytes index),
    Option.map_injective (fun _ _ => Sink.eq_of_view) consoles⟩
  by_cases first : index = 0
  · rw [first]
    exact zero.trans zero'.symm
  · have file := congrFun files (BitVec.ofFin index)
    have positive : BitVec.ofFin index ≠ (0 : BitVec 5) :=
      fun equal => first (congrArg BitVec.toFin equal)
    rw [if_neg positive, if_neg positive] at file
    exact UInt64.toBitVec_inj.mp file

/-! ### Bytes side by side -/

namespace Machine

variable (machine : Machine)

theorem toNat_half (index : Nat) :
    (machine.view.half index).toNat = littleEndian (slice machine.memory index 2) := by
  unfold Reference.State.half
  rw [BitVec.toNat_append, ← Nat.shiftLeft_add_eq_or_of_lt (BitVec.isLt _), Nat.shiftLeft_eq,
    Nat.mul_comm, Nat.add_comm]
  rfl

theorem toNat_word (index : Nat) :
    (machine.view.word index).toNat = littleEndian (slice machine.memory index 4) := by
  unfold Reference.State.word
  rw [BitVec.toNat_append, ← Nat.shiftLeft_add_eq_or_of_lt (BitVec.isLt _), Nat.shiftLeft_eq,
    toNat_half, toNat_half]
  simp only [slice, littleEndian, Nat.add_assoc, Nat.reduceAdd]
  omega

theorem toNat_double (index : Nat) :
    (machine.view.double index).toNat = littleEndian (slice machine.memory index 8) := by
  unfold Reference.State.double
  rw [BitVec.toNat_append, ← Nat.shiftLeft_add_eq_or_of_lt (BitVec.isLt _), Nat.shiftLeft_eq,
    toNat_word, toNat_word]
  simp only [slice, littleEndian, Nat.add_assoc, Nat.reduceAdd]
  omega

/-- The decoder and the reference read the same word. -/
theorem wordAt_memory (index : Nat) : wordAt machine.memory index = machine.view.word index := by
  unfold wordAt
  rw [← toNat_word, BitVec.ofNat_toNat]
  exact BitVec.setWidth_eq _

/-! ### What a machine does, as the reference sees it -/

theorem toBitVec_read_clearZero (index : BitVec 5) :
    (machine.clearZero.registers.read index.toFin).toBitVec = machine.view.register index := by
  show (machine.registers.clearZero.read index.toFin).toBitVec =
    if index = 0 then 0 else (machine.registers.read index.toFin).toBitVec
  rw [Registers.read_clearZero]
  by_cases zero : index = 0
  · rw [zero]
    rfl
  · have positive : ¬(0 : RegisterIndex) = index.toFin :=
      fun equal => zero (congrArg BitVec.ofFin equal.symm)
    rw [if_neg zero, if_neg positive]

theorem view_clearZero : machine.clearZero.view = machine.view := by
  have registers : machine.clearZero.view.register = machine.view.register := by
    funext index
    show (if index = 0 then 0 else (machine.clearZero.registers.read index.toFin).toBitVec) =
      machine.view.register index
    rw [toBitVec_read_clearZero]
    by_cases zero : index = 0
    · rw [if_pos zero]
      exact (if_pos zero).symm
    · exact if_neg zero
  show { machine.view with register := machine.clearZero.view.register } = _
  rw [registers]

theorem view_setRegister (rd : BitVec 5) (value : UInt64) :
    (machine.setRegister rd.toFin value).view = machine.view.write rd value.toBitVec := by
  have registers :
      (machine.setRegister rd.toFin value).view.register =
        (machine.view.write rd value.toBitVec).register := by
    funext index
    show (if index = 0 then 0
      else ((machine.registers.write rd.toFin value).read index.toFin).toBitVec) =
      if index = rd ∧ rd ≠ 0 then value.toBitVec else machine.view.register index
    rw [Registers.read_write]
    by_cases written : index = rd ∧ rd ≠ 0
    · obtain ⟨rfl, positive⟩ := written
      have positive' : index.toFin ≠ 0 := fun equal => positive (congrArg BitVec.ofFin equal)
      rw [if_neg positive, if_pos ⟨rfl, positive'⟩, if_pos ⟨rfl, positive⟩]
    · have written' : ¬(rd.toFin = index.toFin ∧ rd.toFin ≠ 0) := by
        intro ⟨same, positive⟩
        exact written ⟨(congrArg BitVec.ofFin same).symm,
          fun zero => positive (congrArg BitVec.toFin zero)⟩
      rw [if_neg written', if_neg written]
      rfl
  show { machine.view with register := (machine.setRegister rd.toFin value).view.register } = _
  rw [registers]
  rfl

theorem view_store (start width : Nat) (value : UInt64)
    (inside : start + width ≤ machine.capacity) :
    (machine.commit (.memory start (ofNumber width value.toNat))).view =
      machine.view.put start width value.toBitVec := by
  have bytes :
      (machine.commit (.memory start (ofNumber width value.toNat))).view.byte =
        (machine.view.put start width value.toBitVec).byte := by
    funext index
    show (byteAt (overwrite machine.memory start (ofNumber width value.toNat)) index).toBitVec =
      if start ≤ index ∧ index < start + width then
        value.toBitVec.extractLsb' (8 * (index - start)) 8
      else machine.view.byte index
    have length : (ofNumber width value.toNat).length = width := Bytes.length_ofNumber _ _
    rw [Bytes.byteAt_overwrite _ _ _ _ (by rw [length]; exact inside), length]
    by_cases within : start ≤ index ∧ index < start + width
    · rw [if_pos within, if_pos within, Bytes.getElem?_ofNumber, if_pos (by omega)]
      rfl
    · rw [if_neg within, if_neg within]
      rfl
  have size : (machine.commit (.memory start (ofNumber width value.toNat))).capacity =
      machine.capacity := Bytes.size_overwrite _ _ _
  show { machine.view with
    size := (machine.commit (.memory start (ofNumber width value.toNat))).capacity
    byte := (machine.commit (.memory start (ofNumber width value.toNat))).view.byte } = _
  rw [bytes, size]
  rfl

theorem view_deliver (address value : UInt64) :
    (machine.commit (.deliver ⟨value.toUInt8, address⟩)).view =
      machine.view.deliver address.toBitVec value.toBitVec := by
  have console :
      (machine.commit (.deliver ⟨value.toUInt8, address⟩)).view.console =
        (machine.view.deliver address.toBitVec value.toBitVec).console := by
    show ((machine.sink.map (·.receive ⟨value.toUInt8, address⟩)).map _) =
      (machine.sink.map _).map _
    rw [Option.map_map, Option.map_map]
    congr 1
    funext sink
    show (sink.received.push ⟨value.toUInt8, address⟩).toList.map Delivery.view = _
    rw [Array.toList_push, List.map_append]
    rfl
  show { machine.view with
    console := (machine.commit (.deliver ⟨value.toUInt8, address⟩)).view.console } = _
  rw [console]
  rfl

end Machine

end Hart
