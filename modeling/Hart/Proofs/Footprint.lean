/-
This file says what a step may change. Of all registers above zero it changes the one in the field
rd of the word at most, and that only if the word neither stores nor branches nor is a fence. It
changes memory only if the word stores, and then no byte but those that the store reaches; a store
at the console changes none and is heard instead.

The proof goes from the effect to the step. An effect writes one register at most, which is the
destination of the instruction, and only a store has an effect on memory or the sink.
-/

import Hart.Proofs.Console
import Hart.Proofs.ProgramCounter
import Hart.Proofs.Sources

namespace Hart

open Bytes (byteAt)

/-! ### What a step writes -/

/-- The register that an effect writes, if it writes one. -/
def Effect.written? : Effect → Option RegisterIndex
  | result destination _ | link _ destination _ => some destination
  | none | branch _ | write _ => .none

theorem Effect.isSome_written?_iff (effect : Effect) :
    effect.written?.isSome = true ↔ effect.kind = .result ∨ effect.kind = .link := by
  cases effect <;> simp [written?, kind]

namespace Machine

variable {machine : Machine} {instruction : Instruction} {effect : Effect}
  {index : RegisterIndex}

/-- Whatever register an effect writes, it is the one in the first slot. -/
theorem destination_of_effect {action : Action}
    (works : machine.effect instruction action = .ok effect)
    (written : effect.written? = some index) : index = instruction.destination := by
  unfold Machine.effect at works
  cases action with
  | branch condition =>
    dsimp only at works
    split at works
    · cases works
      cases written
    · cases works
      cases written
  | load width extend =>
    dsimp only at works
    split at works
    · cases works
      exact (Option.some.inj written).symm
    · cases works
  | store width =>
    dsimp only at works
    split at works
    · cases works
      cases written
    · cases works
  | fence =>
    cases works
    cases written
  | _ =>
    cases works
    exact (Option.some.inj written).symm

/-- An instruction writes a register if its operation has a result, and then its destination. -/
theorem written?_eq_some_iff (works : machine.effect? instruction = .ok effect) :
    effect.written? = some index ↔
      instruction.operation.HasResult ∧ index = instruction.destination := by
  obtain ⟨action, executes, kind⟩ := machine.exists_action works
  rw [effect?_of_action machine executes] at works
  have writes : effect.written?.isSome = true ↔ instruction.operation.HasResult := by
    rw [effect.isSome_written?_iff, kind]
    exact (hasResult_iff_of_action executes).symm
  constructor
  · intro written
    refine ⟨writes.mp ?_, destination_of_effect works written⟩
    rw [written]
    rfl
  · rintro ⟨result, rfl⟩
    obtain ⟨index, written⟩ := Option.isSome_iff_exists.mp (writes.mpr result)
    rw [written, destination_of_effect works written]

theorem read_apply_of_ne (machine : Machine) (other : effect.written? ≠ some index) :
    (machine.apply effect).registers.read index = machine.registers.read index := by
  have kept : ∀ destination value, some destination ≠ some index →
      (machine.registers.write destination value).read index = machine.registers.read index := by
    intro destination value differ
    rw [Registers.read_write, if_neg fun same => differ (congrArg some same.1)]
  cases effect with
  | none | branch target => rfl
  | result destination value => exact kept destination value other
  | link target destination back => exact kept destination back other
  | write write => cases write <;> rfl

/-- Registers above zero are after a step what they are when its effect has been carried out. -/
theorem read_execute (works : machine.clearZero.effect? instruction = .ok effect)
    (positive : index ≠ 0) :
    (machine.execute instruction).2.registers.read index =
      (machine.clearZero.apply effect).registers.read index := by
  rw [execute_of_ok works, advance_eq]
  exact Registers.read_clearZero_of_ne _ positive

theorem memory_execute (works : machine.clearZero.effect? instruction = .ok effect) :
    (machine.execute instruction).2.memory = (machine.clearZero.apply effect).memory := by
  rw [execute_of_ok works, advance_eq]
  rfl

/-- A completed step leaves every register above zero alone but the destination of its result. -/
theorem read_execute_of_ne (works : machine.clearZero.effect? instruction = .ok effect)
    (positive : index ≠ 0)
    (other : ¬(instruction.operation.HasResult ∧ index = instruction.destination)) :
    (machine.execute instruction).2.registers.read index = machine.registers.read index := by
  have unwritten : effect.written? ≠ some index :=
    fun written => other ((written?_eq_some_iff works).mp written)
  rw [read_execute works positive, read_apply_of_ne machine.clearZero unwritten]
  exact Registers.read_clearZero_of_ne _ positive

/-- A completed step that is no store leaves memory and the sink alone. -/
theorem execute_of_no_store (works : machine.clearZero.effect? instruction = .ok effect)
    (missing : instruction.operation.storeWidth? = none) :
    (machine.execute instruction).2.memory = machine.memory ∧
      (machine.execute instruction).2.sink = machine.sink := by
  constructor
  · rw [memory_execute works]
    obtain ⟨action, executes, kind⟩ := machine.clearZero.exists_action works
    cases effect with
    | write write =>
      cases action with
      | store width => cases missing.symm.trans (Operation.store_iff.mp executes)
      | _ => cases kind
    | _ => rfl
  · rw [sink_execute, delivered?_of_no_store missing]
    exact hear_nil machine.sink

/-- A completed store that misses the console lies inside memory and writes it. -/
theorem memory_execute_of_store {width : Nat}
    (completed : (machine.execute instruction).1 = .continued)
    (written : instruction.operation.storeWidth? = some width)
    (elsewhere : machine.reached instruction .first ≠ 0x10000) :
    let start := (machine.reached instruction .first).toNat
    let value := machine.registerValue (instruction.register .second)
    start + width ≤ machine.memory.size ∧
      (machine.execute instruction).2.memory =
        Bytes.overwrite machine.memory start (Bytes.ofNumber width value.toNat) := by
  obtain ⟨-, stores, fails⟩ := execute_elsewhere written elsewhere
  by_cases inside : (machine.reached instruction .first).toNat + width ≤ machine.capacity
  · exact ⟨inside, (stores inside).2⟩
  · rw [(fails (Nat.not_le.mp inside)).1] at completed
    cases completed

/-- Such a store leaves all bytes alone but those that it stores. -/
theorem byteAt_execute_of_ne {width position : Nat}
    (completed : (machine.execute instruction).1 = .continued)
    (written : instruction.operation.storeWidth? = some width)
    (elsewhere : machine.reached instruction .first ≠ 0x10000)
    (outside : position < (machine.reached instruction .first).toNat ∨
      (machine.reached instruction .first).toNat + width ≤ position) :
    byteAt (machine.execute instruction).2.memory position = byteAt machine.memory position := by
  obtain ⟨inside, memory⟩ := memory_execute_of_store completed written elsewhere
  rw [memory, Bytes.byteAt_overwrite, Bytes.length_ofNumber]
  · exact if_neg fun within => by omega
  · rw [Bytes.length_ofNumber]
    exact inside

/-- A completed step writes little. The instruction may have been fetched from any state and be
executed in any other. The size of memory stays, and no other sink is put in place of the one that
is attached. Register zero is zero afterwards. Of the registers above it at most the one in the
field rd of the word changes, and that only if the word neither stores nor branches nor is a fence.
Memory and what the console has heard change only by a store: one at the console is heard once and
leaves memory alone, and every other is not heard and changes no byte but those that it reaches. -/
theorem fetched_writes_within (machine source : Machine) :
    let instruction := source.fetch
    let word := wordAt source.memory source.pc.toNatClampNeg
    let after := (machine.execute instruction).2
    after.capacity = machine.capacity ∧
      (∃ deliveries, after.sink = hear machine.sink deliveries) ∧
      ((machine.execute instruction).1 = .continued →
        after.registers.read 0 = 0 ∧
          (∀ index, index ≠ 0 → ¬(instruction.operation.HasResult ∧ index = word.rd.toFin) →
            after.registers.read index = machine.registers.read index) ∧
          (instruction.operation.storeWidth? = none →
            after.memory = machine.memory ∧ after.sink = machine.sink) ∧
          ∀ width, instruction.operation.storeWidth? = some width →
            let address := machine.storeAddress word
            let value := machine.registerValue word.rs2.toFin
            (address = 0x10000 → after.memory = machine.memory ∧
              after.sink = hear machine.sink [⟨value.toUInt8, 0x10000⟩]) ∧
            (address ≠ 0x10000 → after.sink = machine.sink ∧
              ∀ position, position < address.toNat ∨ address.toNat + width ≤ position →
                byteAt after.memory position = byteAt machine.memory position)) := by
  intro instruction word after
  refine ⟨capacity_execute machine instruction, ⟨_, sink_execute machine instruction⟩,
    fun completed => ?_⟩
  obtain ⟨effect, works⟩ := exists_effect_of_continued completed
  obtain ⟨opcode, decoded, found, known⟩ :=
    (parcel_decode source.memory source.pc).exists_opcode (isKnown_of_works works)
  have decoded : instruction = decodeWord word source.pc := decoded
  -- From here on only the word matters, and no longer the state that it was fetched from.
  clear_value instruction
  subst decoded
  refine ⟨read_zero_execute machine _, fun index positive other => ?_,
    execute_of_no_store works, fun width written => ?_⟩
  · refine read_execute_of_ne works positive fun ⟨result, destination⟩ => other ⟨result, ?_⟩
    exact destination.trans (destination_decodeWord found known source.pc result)
  · have reached := reached_of_storeWidth found known source.pc machine written
    have stored := register_of_storeWidth found known source.pc written
    rw [← reached, ← stored]
    refine ⟨fun atConsole => ⟨(execute_at_console written atConsole).2.1, ?_⟩,
      fun elsewhere => ⟨(execute_elsewhere written elsewhere).1,
        fun position => byteAt_execute_of_ne completed written elsewhere⟩⟩
    have heard := sink_execute machine (decodeWord word source.pc)
    rw [delivered?_of_console written atConsole] at heard
    exact heard

/-- A halfword stored at an odd address, an addition, and a byte stored at the console, each fetched
from a memory of its own and executed on another machine. -/
theorem fetched_writes_within_halfword :
    let half : Machine := { memory := ⟨#[0xa3, 0x11, 0x50, 0x00]⟩ }
    let sum : Machine := { memory := ⟨#[0x13, 0x03, 0x10, 0x00]⟩ }
    let letter : Machine := { memory := ⟨#[0x23, 0x80, 0x53, 0x00]⟩ }
    let plain : Machine := { memory := Bytes.zeros 6, sink := some {} }
    let machine := (plain.pokeRegister 5 0xbeef).pokeRegister 7 0x10000
    byteAt (machine.execute half.fetch).2.memory 3 = 0xef ∧
      (∀ position, position < 3 ∨ 5 ≤ position →
        byteAt (machine.execute half.fetch).2.memory position =
          byteAt machine.memory position) ∧
      (machine.execute sum.fetch).2.registers.read 6 = 1 ∧
      (machine.execute sum.fetch).2.registers.read 5 = machine.registers.read 5 ∧
      (machine.execute sum.fetch).2.memory = machine.memory ∧
      (machine.execute letter.fetch).2.memory = machine.memory ∧
      (machine.execute letter.fetch).2.sink = some ⟨#[⟨0xef, 0x10000⟩]⟩ := by
  intro half sum letter plain machine
  have storing : (machine.execute half.fetch).1 = .continued := by decide +kernel
  have adding : (machine.execute sum.fetch).1 = .continued := by decide +kernel
  have delivering : (machine.execute letter.fetch).1 = .continued := by decide +kernel
  have stores := ((fetched_writes_within machine half).2.2 storing).2.2.2 2 (by decide +kernel)
  have adds := ((fetched_writes_within machine sum).2.2 adding).2
  have delivers :=
    ((fetched_writes_within machine letter).2.2 delivering).2.2.2 1 (by decide +kernel)
  have address : machine.storeAddress (wordAt half.memory half.pc.toNatClampNeg) = 3 := by
    decide +kernel
  refine ⟨by decide +kernel, fun position outside => ?_, by decide +kernel,
    adds.1 5 (by decide) (by decide +kernel), (adds.2.1 (by decide +kernel)).1,
    (delivers.1 (by decide +kernel)).1, by decide +kernel⟩
  refine (stores.2 (by decide +kernel)).2 position ?_
  rw [address]
  exact outside

end Machine

end Hart
