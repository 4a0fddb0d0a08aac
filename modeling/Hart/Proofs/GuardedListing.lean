/-
This file lists code with guards and puts the results about guards together. The walk over the code
sums up offset and size twice, once for the end of an entry, which is then cut to the end of the
code, and once for the next offset. It is given as many rounds as there are bytes and has no result
if it needs more, so that it ends is part of what is proved.
-/

import Hart.Proofs.GuardedExecution
import Hart.Proofs.Walk

namespace Hart

namespace Guarded

open Listing (Entry entryAt entriesFrom)

/-! ### The walk over code -/

/-- The entries from an offset on, after those already found. -/
def entries? (code : ByteArray) (base : UInt64) (found : Array Entry) (offset : Nat) :
    (rounds : Nat) → Option (Array Entry)
  | 0 => if offset < code.size then none else return found
  | rounds + 1 =>
    if offset < code.size then do
      let (instruction, size) ← decode? code (Int64.ofNat offset)
      let reach ← sum? offset size.toNat
      let address := base + UInt64.ofNat offset
      let bytes ← window? code offset (min reach code.size)
      let entry : Entry :=
        { address, bytes, instruction := { instruction with address := address.toInt64 } }
      let next ← sum? offset size.toNat
      entries? code base (found.push entry) next rounds
    else return found

/-- The listing of code that belongs at an address. -/
def disassemble? (code : ByteArray) (base : UInt64) : Option (List Entry) := do
  let entries ← entries? code base #[] 0 code.size
  return entries.toList

/-- The bytes of an entry end where its instruction ends, or with the code. -/
theorem window?_entryAt {code : ByteArray} {offset : Nat} (within : offset < code.size)
    (base : UInt64) :
    window? code offset
        (min (offset + (entryAt code base offset).instruction.size.toNat) code.size) =
      some (entryAt code base offset).bytes := by
  obtain ⟨count, stop⟩ : ∃ count,
      min (offset + (entryAt code base offset).instruction.size.toNat) code.size =
        offset + count :=
    Nat.exists_eq_add_of_le (by omega)
  have inside : offset + count ≤ code.size := by omega
  rw [stop, window?_of_le inside, ← Bytes.toList_extract inside, Listing.bytes_entryAt,
    ByteArray.data_extract, Array.toList_extract, List.extract_eq_take_drop,
    Nat.add_sub_cancel_left]
  refine congrArg some (List.take_eq_take_iff.mpr ?_)
  have left : (code.data.toList.drop offset).length = code.size - offset := List.length_drop
  omega

/-- As many rounds as there are bytes left are enough, and no sum on the way overflows. -/
theorem entries?_eq {code : ByteArray} (held : code.size < 2 ^ 63) (base : UInt64)
    (rounds : Nat) :
    ∀ (found : Array Entry) (offset : Nat), code.size ≤ offset + rounds →
      entries? code base found offset rounds =
        some (entriesFrom code base found offset rounds) := by
  -- The bound carries the induction: a round takes at least one of the bytes left.
  induction rounds with
  | zero =>
    intro found offset enough
    exact if_neg (Nat.not_lt.mpr enough)
  | succ rounds inductionHypothesis =>
    intro found offset enough
    unfold entries? entriesFrom
    by_cases within : offset < code.size
    · have positive := Listing.toNat_size_pos code base offset
      have short := Listing.toNat_size_le code base offset
      have limit : 2 ^ 63 + 4 ≤ UInt64.size := by decide
      have bounded : offset + (entryAt code base offset).instruction.size.toNat < UInt64.size := by
        omega
      rw [if_pos within, if_pos within, bind_of_eq_some (decode?_eq code (Int64.ofNat offset))]
      change (sum? offset (entryAt code base offset).instruction.size.toNat >>= _) = _
      rw [bind_of_eq_some (sum?_of_lt bounded), bind_of_eq_some (window?_entryAt within base)]
      change (sum? offset (entryAt code base offset).instruction.size.toNat >>= _) = _
      rw [bind_of_eq_some (sum?_of_lt bounded)]
      exact inductionHypothesis _ _ (by omega)
    · rw [if_neg within, if_neg within]
      rfl

theorem disassemble?_eq {code : ByteArray} (held : code.size < 2 ^ 63) (base : UInt64) :
    disassemble? code base = some (disassemble code base) := by
  unfold disassemble?
  rw [bind_of_eq_some (entries?_eq held base code.size #[] 0 (Nat.le_add_left _ _))]
  rfl

/-! ### Every guard -/

/-- No input makes a guard fail. With any memory and any code whose bytes a signed number of 64 bits
can count, each of the following has a result, and it is the one without guards: to decode any word
at any address, to decode at any offset of any buffer, to fetch, to apply the handler of any
operation to any instruction, to execute any instruction, to go on for any number of steps, to load
and to store at any address with any width and any value, to install any image, and to list the code
at any base. -/
theorem every_guard_passes (machine : Machine) (code : ByteArray)
    (held : machine.memory.size < 2 ^ 63) (held' : code.size < 2 ^ 63) :
    (∀ word address, decodeWord? word address = some (decodeWord word address)) ∧
      (∀ buffer offset, decode? buffer offset =
        some (decode buffer offset, (decode buffer offset).size)) ∧
      fetch? machine = some machine.fetch ∧
      (∀ operation instruction, handle? machine operation instruction =
        some (handled machine operation instruction)) ∧
      (∀ instruction, step? machine instruction = some (machine.execute instruction)) ∧
      (∀ count, stepped? machine count =
        some (Nat.iterate (fun machine => machine.step.2) count machine)) ∧
      (∀ address width, load? machine address width = some (machine.load address width)) ∧
      (∀ address width value, store? machine address width value =
        some (machine.store address width value)) ∧
      (∀ image, install? machine image = some (machine.install image)) ∧
      ∀ base, disassemble? code base = some (disassemble code base) := by
  have bounded : machine.capacity < UInt64.size :=
    Nat.lt_trans held (by decide : 2 ^ 63 < UInt64.size)
  exact ⟨decodeWord?_eq, decode?_eq, fetch?_eq machine, handle?_eq bounded, step?_eq bounded,
    fun count => stepped?_eq count machine bounded, load?_eq bounded, store?_eq bounded,
    install?_eq bounded, disassemble?_eq held'⟩

/-- A memory of six bytes, with a word and the first half of another one, at which the machine gets
stuck. A shift built by hand takes its registers and its amount from numbers with high bits, loads
reach beyond the last byte and around the end of the address space, and code without bytes stands
right behind the memory. -/
theorem every_guard_passes_six :
    let memory : ByteArray := ⟨#[0x93, 0x00, 0x10, 0x00, 0x13, 0x00]⟩
    let machine : Machine := { memory, registers := Registers.zero.put 31 0x8000001f }
    let shift : Instruction := { operation := .sraw, size := 4, operands := ⟨33, -1, -33⟩ }
    memory.size < 2 ^ 63 ∧
      decode? memory 0 = some (decodeWord 0x00100093 0, 4) ∧
      decode? memory 4 = some (.unknown 4 4, 4) ∧
      fetch? machine = some (decodeWord 0x00100093 0) ∧
      (step? machine shift).map (fun stepped => stepped.2.registers.read 1) =
        some 0xffffffffffffffff ∧
      (stepped? machine 3).map (fun machine => (machine.pc, machine.registers.read 1)) =
        some (4, 1) ∧
      load? machine 4 2 = some (.ok 0x13) ∧
      load? machine 5 2 = some (.error (.memoryFault 5 2)) ∧
      load? machine 0xffffffffffffffff 8 = some (.error (.memoryFault 0xffffffffffffffff 8)) ∧
      store? machine 0 255 7 = some (.error (.memoryFault 0 255), machine) ∧
      (install? machine ⟨0, 6, ⟨#[]⟩⟩).map (fun installed => installed.1) = some (.ok ()) ∧
      (disassemble? memory 0).map (fun entries => entries.map (·.bytes)) =
        some [[0x93, 0x00, 0x10, 0x00], [0x13, 0x00]] := by
  intro memory machine shift
  have held : memory.size < 2 ^ 63 := by decide
  obtain ⟨-, decodes, fetches, -, steps, goesOn, loads, stores, installs, lists⟩ :=
    every_guard_passes machine memory held held
  refine ⟨held, ?_, ?_, ?_, ?_, ?_, ?_, ?_, ?_, ?_, ?_, ?_⟩
  · rw [decodes]
    decide +kernel
  · rw [decodes]
    decide +kernel
  · rw [fetches]
    decide +kernel
  · rw [steps]
    decide +kernel
  · rw [goesOn]
    decide +kernel
  · rw [loads]
    rfl
  · rw [loads]
    rfl
  · rw [loads]
    rfl
  · rw [stores]
    rfl
  · rw [installs]
    rfl
  · rw [lists]
    decide +kernel

end Guarded

end Hart
