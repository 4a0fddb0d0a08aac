/-
This file holds the general purpose registers. Register zero is stored like every other register, so
that a host may put any value there, but writes made by instructions never reach it.
-/

import Hart.Instruction.Basic

namespace Hart

/-- The contents of the general purpose registers. -/
abbrev Registers := Vector UInt64 32

namespace Registers

/-- All registers zero. -/
def zero : Registers :=
  Vector.replicate 32 0

/-- The value of a register. -/
def read (registers : Registers) (index : RegisterIndex) : UInt64 :=
  registers.get index

/-- The registers with a new value in one of them, register zero included. -/
def put (registers : Registers) (index : RegisterIndex) (value : UInt64) : Registers :=
  registers.set index.val value index.isLt

/-- The registers after an instruction writes one of them. Writes to register zero are discarded. -/
def write (registers : Registers) (index : RegisterIndex) (value : UInt64) : Registers :=
  if index = 0 then registers else registers.put index value

/-- The registers with register zero cleared. -/
def clearZero (registers : Registers) : Registers :=
  registers.put 0 0

theorem read_put (registers : Registers) (index other : RegisterIndex) (value : UInt64) :
    (registers.put index value).read other =
      if index = other then value else registers.read other := by
  change (Vector.set registers index.val value index.isLt)[other.val] = _
  rw [Vector.getElem_set]
  simp only [Fin.ext_iff]
  rfl

theorem read_write (registers : Registers) (index other : RegisterIndex) (value : UInt64) :
    (registers.write index value).read other =
      if index = other ∧ index ≠ 0 then value else registers.read other := by
  unfold write
  by_cases zero : index = 0
  · simp [zero]
  · simp [zero, read_put]

theorem read_clearZero (registers : Registers) (index : RegisterIndex) :
    registers.clearZero.read index = if 0 = index then 0 else registers.read index :=
  read_put registers 0 index 0

theorem read_clearZero_of_ne (registers : Registers) {index : RegisterIndex}
    (positive : index ≠ 0) : registers.clearZero.read index = registers.read index :=
  (registers.read_clearZero index).trans (if_neg (Ne.symm positive))

end Registers

/-- The names that the calling convention gives to the registers, by register number. -/
def registerNames : Vector String 32 := #v[
  "zero", "ra", "sp", "gp", "tp", "t0", "t1", "t2", "s0", "s1", "a0", "a1", "a2", "a3", "a4",
  "a5", "a6", "a7", "s2", "s3", "s4", "s5", "s6", "s7", "s8", "s9", "s10", "s11", "t3", "t4",
  "t5", "t6"]

namespace RegisterIndex

/-- The first three temporaries of the calling convention. -/
def t0 : RegisterIndex := 5
def t1 : RegisterIndex := 6
def t2 : RegisterIndex := 7

end RegisterIndex

end Hart
