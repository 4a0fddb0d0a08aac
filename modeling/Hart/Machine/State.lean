/-
This file defines the state of the machine: a program counter, the registers, a flat memory and
possibly a sink that receives what the program writes to the console. Loads and stores check
everything that can go wrong before they touch anything.
-/

import Hart.Machine.Register
import Hart.Machine.Trap
import Hart.Bytes.Number
import Hart.Bytes.Buffer

namespace Hart

/-- One byte that arrived at the console. -/
structure Delivery where
  byte : UInt8
  address : UInt64
deriving DecidableEq

/-- A receiver for the console, with all it has received, oldest first. -/
structure Sink where
  received : Array Delivery := #[]
deriving DecidableEq

/-- The sink after one more delivery. -/
def Sink.receive (sink : Sink) (delivery : Delivery) : Sink :=
  ⟨sink.received.push delivery⟩

/-- The state of the machine. -/
structure Machine where
  /-- The program counter. It need not lie inside memory. -/
  pc : Int64 := 0
  registers : Registers := .zero
  memory : ByteArray
  sink : Option Sink := none

namespace Machine

/-- The address of the console. Stores there go to the sink and not to memory. -/
def console : UInt64 := 0x10000

/-- The widths in bytes that a load or store may have. -/
def accessWidths : List Nat := [1, 2, 4, 8]

/-- The size of memory in bytes. -/
def capacity (machine : Machine) : Nat :=
  machine.memory.size

/-- Attaches a fresh sink in place of the one before. -/
def attachSink (machine : Machine) : Machine :=
  { machine with sink := some {} }

/-- Writes a register the way an instruction does. -/
def setRegister (machine : Machine) (index : RegisterIndex) (value : UInt64) : Machine :=
  { machine with registers := machine.registers.write index value }

/-- Writes a register the way a host does, register zero included. -/
def pokeRegister (machine : Machine) (index : RegisterIndex) (value : UInt64) : Machine :=
  { machine with registers := machine.registers.put index value }

/-- Replaces memory from an address on the way a host does. -/
def pokeMemory (machine : Machine) (address : Nat) (bytes : List UInt8) : Machine :=
  { machine with memory := Bytes.overwrite machine.memory address bytes }

/-- Whether an access of the given width lies wholly inside memory. Addresses do not wrap around. -/
def accessible (machine : Machine) (address : UInt64) (width : Nat) : Bool :=
  accessWidths.contains width && address.toNat + width ≤ machine.capacity

/-- The little-endian number of `width` bytes at an address. -/
def load (machine : Machine) (address : UInt64) (width : Nat) : Except Trap UInt64 :=
  if machine.accessible address width then
    .ok (UInt64.ofNat (Bytes.littleEndian (Bytes.slice machine.memory address.toNat width)))
  else
    .error (.memoryFault address width)

theorem accessible_iff {machine : Machine} {address : UInt64} {width : Nat}
    (real : width ∈ accessWidths) :
    machine.accessible address width = true ↔ address.toNat + width ≤ machine.capacity := by
  unfold accessible
  rw [List.contains_iff_mem.mpr real, Bool.true_and, decide_eq_true_iff]

/-- A load of a width that exists fails exactly where it leaves memory. -/
theorem load_eq {machine : Machine} {address : UInt64} {width : Nat}
    (real : width ∈ accessWidths) :
    machine.load address width =
      if address.toNat + width ≤ machine.capacity then
        .ok (UInt64.ofNat (Bytes.littleEndian (Bytes.slice machine.memory address.toNat width)))
      else .error (.memoryFault address width) := by
  unfold load
  simp only [accessible_iff real]

/-- What a permitted store does: it reaches the console or memory, never both. -/
inductive Write where
  /-- The lowest byte goes to the sink. -/
  | deliver (delivery : Delivery)
  /-- The bytes replace those from the address on. -/
  | memory (address : Nat) (bytes : List UInt8)
deriving DecidableEq

/-- What storing the lowest `width` bytes of a value amounts to. The console answers whatever the
size of memory. -/
def write? (machine : Machine) (address : UInt64) (width : Nat) (value : UInt64) :
    Except Trap Write :=
  if address = console ∧ accessWidths.contains width then
    .ok (.deliver ⟨value.toUInt8, address⟩)
  else if machine.accessible address width then
    .ok (.memory address.toNat (Bytes.ofNumber width value.toNat))
  else
    .error (.memoryFault address width)

/-- A store of a width that exists fails exactly where it leaves memory and misses the console. -/
theorem write?_eq {machine : Machine} {address : UInt64} {width : Nat} {value : UInt64}
    (real : width ∈ accessWidths) :
    machine.write? address width value =
      if address = console then .ok (.deliver ⟨value.toUInt8, address⟩)
      else if address.toNat + width ≤ machine.capacity then
        .ok (.memory address.toNat (Bytes.ofNumber width value.toNat))
      else .error (.memoryFault address width) := by
  unfold write?
  simp only [accessible_iff real, List.contains_iff_mem.mpr real, and_true]

/-- Carries out a permitted store. Without a sink a delivery is lost. -/
def commit (machine : Machine) : Write → Machine
  | .deliver delivery => { machine with sink := machine.sink.map (·.receive delivery) }
  | .memory address bytes =>
    { machine with memory := Bytes.overwrite machine.memory address bytes }

@[simp] theorem capacity_commit (machine : Machine) (write : Write) :
    (machine.commit write).capacity = machine.capacity := by
  cases write with
  | deliver delivery => rfl
  | memory address bytes => exact Bytes.size_overwrite machine.memory address bytes

/-- Stores the lowest `width` bytes of a value, least significant first. -/
def store (machine : Machine) (address : UInt64) (width : Nat) (value : UInt64) :
    Except Trap Unit × Machine :=
  match machine.write? address width value with
  | .ok write => (.ok (), machine.commit write)
  | .error trap => (.error trap, machine)

/-- A one-line summary for diagnostics. Memory is shown by its size only. -/
def summary (machine : Machine) : String :=
  "MachineState \x7b pc: " ++ Text.decimal machine.pc.toInt ++ ", regs: ["
    ++ String.intercalate ", " (machine.registers.toList.map fun value => value.toNat.repr)
    ++ "], capacity: " ++ machine.capacity.repr ++ ", output: "
    ++ (if machine.sink.isSome then "true" else "false") ++ " \x7d"

end Machine

end Hart
