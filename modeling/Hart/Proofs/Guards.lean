/-
This file states the basic operations of the machine in the way of a host that stops at every
mistake: a sum that leaves 64 bits, a shift by the whole width or more, an index or a window outside
of what it is taken from, and a copy between runs of different lengths have no result.

The definitions that run are total. A byte beyond the end reads as zero, a shift reduces its amount
and a register number is below 32 by its type, so none of them says whether it was asked for
something that does not exist. With a guard in front of every operation the same computation can
fail, and that it never does is then a statement about it.
-/

import Hart.Machine.Step

namespace Hart

namespace Guarded

/-- A computation goes on behind a guard that lets it through. -/
theorem bind_of_eq_some {Result Next : Type} {guarded : Option Result} {result : Result}
    {rest : Result → Option Next} (passed : guarded = some result) :
    (guarded >>= rest) = rest result := by
  rw [passed]
  rfl

/-! ### Numbers -/

/-- The sum of two sizes or addresses, if it is a number of 64 bits too. -/
def sum? (first second : Nat) : Option Nat :=
  if first + second < UInt64.size then some (first + second) else none

/-- Moves bits up by less than their number. -/
def shiftLeft? {width : Nat} (bits : BitVec width) (amount : Nat) : Option (BitVec width) :=
  if amount < width then some (bits <<< amount) else none

/-- Moves bits down by less than their number and fills up with zeros. -/
def shiftRight? {width : Nat} (bits : BitVec width) (amount : Nat) : Option (BitVec width) :=
  if amount < width then some (bits >>> amount) else none

/-- Moves bits down by less than their number and fills up with the sign. -/
def shiftRightArithmetic? {width : Nat} (bits : BitVec width) (amount : Nat) :
    Option (BitVec width) :=
  if amount < width then some (bits.sshiftRight amount) else none

theorem sum?_of_lt {first second : Nat} (bounded : first + second < UInt64.size) :
    sum? first second = some (first + second) :=
  if_pos bounded

theorem shiftLeft?_of_lt {width amount : Nat} (bits : BitVec width) (less : amount < width) :
    shiftLeft? bits amount = some (bits <<< amount) :=
  if_pos less

theorem shiftRight?_of_lt {width amount : Nat} (bits : BitVec width) (less : amount < width) :
    shiftRight? bits amount = some (bits >>> amount) :=
  if_pos less

theorem shiftRightArithmetic?_of_lt {width amount : Nat} (bits : BitVec width)
    (less : amount < width) :
    shiftRightArithmetic? bits amount = some (bits.sshiftRight amount) :=
  if_pos less

example : sum? 0xffffffffffffffff 1 = none := by decide

/-! ### Runs of bytes -/

/-- The byte at an index. -/
def byte? (buffer : ByteArray) (index : Nat) : Option UInt8 :=
  buffer.data[index]?

/-- The bytes from `start` up to `stop`. -/
def window? (buffer : ByteArray) (start stop : Nat) : Option (List UInt8) :=
  if start ≤ stop ∧ stop ≤ buffer.size then some (Bytes.slice buffer start (stop - start))
  else none

/-- The first bytes of a run. -/
def leading? (bytes : List UInt8) (count : Nat) : Option (List UInt8) :=
  if count ≤ bytes.length then some (bytes.take count) else none

/-- The buffer with the bytes from `start` up to `stop` replaced by as many others. -/
def fill? (buffer : ByteArray) (start stop : Nat) (bytes : List UInt8) : Option ByteArray :=
  if start ≤ stop ∧ stop ≤ buffer.size ∧ bytes.length = stop - start then
    some (Bytes.overwrite buffer start bytes)
  else none

theorem byte?_of_lt {buffer : ByteArray} {index : Nat} (inside : index < buffer.size) :
    byte? buffer index = some (Bytes.byteAt buffer index) := by
  unfold byte? Bytes.byteAt
  rw [dif_pos inside, ByteArray.getElem_eq_getElem_data]
  exact Array.getElem?_eq_getElem inside

theorem window?_of_le {buffer : ByteArray} {start count : Nat}
    (inside : start + count ≤ buffer.size) :
    window? buffer start (start + count) = some (Bytes.slice buffer start count) := by
  unfold window?
  rw [if_pos ⟨Nat.le_add_right start count, inside⟩, Nat.add_sub_cancel_left]

theorem window?_of_lt {buffer : ByteArray} {start stop : Nat} (beyond : buffer.size < stop) :
    window? buffer start stop = none :=
  if_neg fun within => Nat.not_le.mpr beyond within.2

theorem leading?_of_le {bytes : List UInt8} {count : Nat} (enough : count ≤ bytes.length) :
    leading? bytes count = some (bytes.take count) :=
  if_pos enough

theorem fill?_of_le {buffer : ByteArray} {start count : Nat} {bytes : List UInt8}
    (inside : start + count ≤ buffer.size) (equal : bytes.length = count) :
    fill? buffer start (start + count) bytes = some (Bytes.overwrite buffer start bytes) := by
  unfold fill?
  rw [Nat.add_sub_cancel_left]
  exact if_pos ⟨Nat.le_add_right start count, inside, equal⟩

/-! ### Registers -/

/-- The value of the register with a number. -/
def read? (registers : Registers) (number : Nat) : Option UInt64 :=
  registers[number]?

/-- The registers with a new value in the one with a number. -/
def put? (registers : Registers) (number : Nat) (value : UInt64) : Option Registers :=
  if inside : number < 32 then some (registers.set number value inside) else none

/-- The registers after an instruction writes one of them. Register zero is never accessed. -/
def write? (registers : Registers) (number : Nat) (value : UInt64) : Option Registers :=
  if number = 0 then some registers else put? registers number value

theorem read?_val (registers : Registers) (index : RegisterIndex) :
    read? registers index.val = some (registers.read index) :=
  Vector.getElem?_eq_getElem index.isLt

theorem put?_val (registers : Registers) (index : RegisterIndex) (value : UInt64) :
    put? registers index.val value = some (registers.put index value) :=
  dif_pos index.isLt

theorem write?_val (registers : Registers) (index : RegisterIndex) (value : UInt64) :
    write? registers index.val value = some (registers.write index value) := by
  unfold write? Registers.write
  by_cases zero : index = 0
  · rw [if_pos zero, zero]
    rfl
  · have positive : index.val ≠ 0 := fun equal => zero (Fin.ext equal)
    rw [if_neg zero, if_neg positive, put?_val]

/-- Clearing register zero. -/
theorem put?_zero (registers : Registers) : put? registers 0 0 = some registers.clearZero :=
  put?_val registers 0 0

/-! ### Operands -/

/-- The operand at a position of the list. -/
def operand? (operands : Operands) : (position : Nat) → Option Int64
  | 0 => some operands.first
  | 1 => some operands.second
  | 2 => some operands.third
  | _ => none

/-- The operands with another one at a position of the list. -/
def replace? (operands : Operands) (operand : Int64) : (position : Nat) → Option Operands
  | 0 => some { operands with first := operand }
  | 1 => some { operands with second := operand }
  | 2 => some { operands with third := operand }
  | _ => none

/-- The register number in the operand at a position: its low five bits, whatever a hand-built
instruction holds above them. -/
def number? (instruction : Instruction) (position : Nat) : Option Nat := do
  let operand ← operand? instruction.operands position
  return (operand &&& 0x1f).toUInt64.toNat

/-- The value of the register that the operand at a position names. -/
def value? (machine : Machine) (instruction : Instruction) (position : Nat) : Option UInt64 := do
  let number ← number? instruction position
  read? machine.registers number

/-- Writes the register that the operand at a position names. -/
def setRegister? (machine : Machine) (instruction : Instruction) (position : Nat)
    (value : UInt64) : Option Machine := do
  let number ← number? instruction position
  let registers ← write? machine.registers number value
  return { machine with registers }

/-- The position of a slot in the list. -/
def position : Slot → Nat
  | .first => 0
  | .second => 1
  | .third => 2

theorem operand?_position (operands : Operands) (slot : Slot) :
    operand? operands (position slot) = some (operands.get slot) := by
  cases slot <;> rfl

/-- Masking is what keeps a register number below 32, also where the operand is negative. -/
theorem number?_position (instruction : Instruction) (slot : Slot) :
    number? instruction (position slot) = some (instruction.register slot).val := by
  have masked : ∀ operand : Int64, (operand &&& 0x1f).toUInt64 = operand.toUInt64 % 32 := by
    intro operand
    apply UInt64.toNat_inj.mp
    rw [UInt64.toNat_mod]
    show (operand.toBitVec &&& 31#64).toNat = operand.toBitVec.toNat % 32
    rw [BitVec.toNat_and]
    exact Nat.and_two_pow_sub_one_eq_mod _ 5
  unfold number?
  rw [operand?_position]
  show some (instruction.operands.get slot &&& 0x1f).toUInt64.toNat = _
  rw [masked]
  rfl

theorem value?_position (machine : Machine) (instruction : Instruction) (slot : Slot) :
    value? machine instruction (position slot) = some (machine.operand instruction slot) := by
  unfold value?
  rw [number?_position]
  exact read?_val machine.registers (instruction.register slot)

theorem setRegister?_position (machine : Machine) (instruction : Instruction) (slot : Slot)
    (value : UInt64) :
    setRegister? machine instruction (position slot) value =
      some (machine.setRegister (instruction.register slot) value) := by
  unfold setRegister?
  rw [number?_position]
  show (write? machine.registers (instruction.register slot).val value).bind _ = _
  rw [write?_val]
  rfl

end Guarded

end Hart
