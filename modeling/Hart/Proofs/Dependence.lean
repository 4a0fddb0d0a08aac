/-
This file says what a step depends on. Two machines that stand at the same address, with memories of
the same size, may differ in all registers but the sources that the word names, in all bytes but
those that it loads, and in who listens to them: they end the step alike and do the same to the
register in the field rd, to memory and to the console.

Both work out the same effect, as an action takes nothing from the state but its sources, and the
effect says what is done. It does not say what a register holds that it leaves alone. A fence has a
field rd and writes no register, and so does a load that fails; what the register held before is
still there, and it may be different in each of the machines.
-/

import Hart.Proofs.Footprint

namespace Hart

open Bytes (byteAt)

namespace Machine

variable {machine : Machine} {instruction : Instruction} {effect : Effect}
  {index : RegisterIndex}

/-! ### What a step reads -/

/-- Whether two machines agree on all that a word may read: the registers that its format names as
sources and, if it loads, the bytes that it loads. -/
structure AgreeOnReads (first second : Machine) (instruction : Instruction) (word : Word) :
    Prop where
  pc : first.pc = second.pc
  capacity : first.capacity = second.capacity
  registers : ∀ format, instruction.format? = some format → ∀ index ∈ format.sources word,
    first.registerValue index = second.registerValue index
  bytes : ∀ width, instruction.operation.loadWidth? = some width → ∀ index < width,
    byteAt first.memory ((first.loadAddress word).toNat + index) =
      byteAt second.memory ((first.loadAddress word).toNat + index)

/-- A register that a word does not name as a source may hold anything. -/
theorem agreeOnReads_pokeRegister (machine : Machine) (value other : UInt64) {word : Word}
    (unread : ∀ format, instruction.format? = some format → index ∉ format.sources word) :
    (machine.pokeRegister index value).AgreeOnReads (machine.pokeRegister index other)
      instruction word where
  pc := rfl
  capacity := rfl
  registers format recorded source member := by
    have differ : index ≠ source := fun equal => unread format recorded (equal ▸ member)
    have kept : ∀ value, (machine.pokeRegister index value).registers.read source =
        machine.registers.read source :=
      fun value => (Registers.read_put _ _ _ _).trans (if_neg differ)
    unfold registerValue
    rw [kept, kept]
  bytes _ _ _ _ := rfl

section

variable {first second : Machine}

theorem load_congr {address : UInt64} {width : Nat} (capacity : first.capacity = second.capacity)
    (bytes : ∀ index < width,
      byteAt first.memory (address.toNat + index) = byteAt second.memory (address.toNat + index)) :
    first.load address width = second.load address width := by
  unfold load accessible
  rw [capacity, Bytes.slice_congr bytes]

theorem write?_congr {address value : UInt64} {width : Nat}
    (capacity : first.capacity = second.capacity) :
    first.write? address width value = second.write? address width value := by
  unfold write? accessible
  rw [capacity]

/-- Machines that agree on what an action reads work out the same effect. -/
theorem effect_congr {action : Action} (pc : first.pc = second.pc)
    (capacity : first.capacity = second.capacity)
    (operands : ∀ slot ∈ action.reads,
      first.operand instruction slot = second.operand instruction slot)
    (bytes : ∀ width extend, action = .load width extend → ∀ index < width,
      byteAt first.memory ((first.effectiveAddress instruction .second).toNat + index) =
        byteAt second.memory ((first.effectiveAddress instruction .second).toNat + index)) :
    first.effect instruction action = second.effect instruction action := by
  have base : ∀ slot ∈ action.reads,
      first.effectiveAddress instruction slot = second.effectiveAddress instruction slot :=
    fun slot read => congrArg (· + _) (operands slot read)
  have following : first.following instruction = second.following instruction :=
    congrArg (· + _) pc
  unfold effect
  cases action with
  | loadUpper | fence => rfl
  | addUpper | jump => simp only [pc, following]
  | jumpRegister => simp only [base .second List.mem_cons_self, following]
  | branch condition =>
    have slots : Slot.second ∈ [Slot.first, .second] := by decide
    simp only [operands .first List.mem_cons_self, operands .second slots, pc, following]
  | load width extend =>
    have loaded := load_congr capacity (bytes width extend rfl)
    rw [base .second List.mem_cons_self] at loaded
    simp only [base .second List.mem_cons_self, loaded]
  | store width =>
    have slots : Slot.second ∈ [Slot.first, .second] := by decide
    simp only [write?_congr capacity, base .first List.mem_cons_self, operands .second slots]
  | immediate combine => simp only [operands .second List.mem_cons_self]
  | register combine =>
    have slots : Slot.third ∈ [Slot.second, .third] := by decide
    simp only [operands .second List.mem_cons_self, operands .third slots]

theorem AgreeOnReads.effect?_eq {word : Word} {opcode : Opcode} {address : Int64}
    (found : word.opcode? = some opcode) (known : (opcode.operation word).isKnown = true)
    (agree : first.AgreeOnReads second (decodeWord word address) word) :
    first.clearZero.effect? (decodeWord word address) =
      second.clearZero.effect? (decodeWord word address) := by
  cases executes : (decodeWord word address).operation.action? with
  | none => rw [effect?_of_no_action _ executes, effect?_of_no_action _ executes]
  | some action =>
    rw [effect?_of_action _ executes, effect?_of_action _ executes]
    refine effect_congr agree.pc agree.capacity (fun slot read => ?_)
      fun width extend loads => ?_
    · rw [operand_clearZero, operand_clearZero]
      exact agree.registers _ (format?_decodeWord found address) _
        (register_mem_sources found known address executes read)
    · subst loads
      have read := Operation.exists_load_iff.mp ⟨extend, executes⟩
      rw [effectiveAddress_clearZero, reached_of_loadWidth found known address first read]
      exact agree.bytes width read

/-! ### Steps with the same effect -/

variable (same : first.clearZero.effect? instruction = second.clearZero.effect? instruction)
include same

theorem outcome_execute_congr : (first.execute instruction).1 = (second.execute instruction).1 := by
  cases works : second.clearZero.effect? instruction with
  | ok effect => rw [execute_of_ok works, execute_of_ok (same.trans works)]
  | error trap => rw [execute_of_error works, execute_of_error (same.trans works)]

theorem pc_execute_congr (pc : first.pc = second.pc) :
    (first.execute instruction).2.pc = (second.execute instruction).2.pc := by
  cases works : second.clearZero.effect? instruction with
  | ok effect => rw [pc_execute works, pc_execute (same.trans works), pc]
  | error trap =>
    rw [execute_of_error works, execute_of_error (same.trans works)]
    exact pc

theorem delivered?_congr :
    (first.delivered? instruction).toList = (second.delivered? instruction).toList := by
  cases works : second.clearZero.effect? instruction with
  | ok effect => rw [← heard_eq works, ← heard_eq (same.trans works)]
  | error trap => rw [delivered?_of_error works, delivered?_of_error (same.trans works)]

/-- A register that an effect writes is the same afterwards, whatever it was before. -/
theorem read_written_congr (works : second.clearZero.effect? instruction = .ok effect)
    (written : effect.written? = some index) :
    (first.execute instruction).2.registers.read index =
      (second.execute instruction).2.registers.read index := by
  by_cases zero : index = 0
  · rw [zero, read_zero_execute, read_zero_execute]
  · rw [read_execute works zero, read_execute (same.trans works) zero]
    have holds : ∀ registers other : Registers, ∀ value,
        (registers.write index value).read index = (other.write index value).read index := by
      intro registers other value
      rw [Registers.read_write, Registers.read_write, if_pos ⟨rfl, zero⟩, if_pos ⟨rfl, zero⟩]
    cases effect with
    | none | branch target | write write => cases written
    | result destination value | link target destination value =>
      cases written
      exact holds _ _ value

end

/-- A fence leaves every register above zero alone, and so does an instruction that is not
executed. -/
theorem read_execute_of_idle (idle : instruction.operation = .fence ∨
      (machine.execute instruction).1 ≠ .continued) (positive : index ≠ 0) :
    (machine.execute instruction).2.registers.read index = machine.registers.read index := by
  cases works : machine.clearZero.effect? instruction with
  | ok effect =>
    refine read_execute_of_ne works positive fun changed => ?_
    obtain fence | failed := idle
    · exact changed.1.2.2 fence
    · exact failed (congrArg Prod.fst (execute_of_ok works))
  | error trap =>
    rw [execute_of_error works]
    exact (Registers.read_clearZero_of_ne _ positive).trans
      (Registers.read_clearZero_of_ne _ positive)

/-- A step depends on little. Take an instruction that is known and two machines, whatever sinks
listen to them, that agree on the program counter, on the size of memory, on the registers that the
format names as sources and on the bytes that a load reaches. They end it alike, at the same program
counter and with the same deliveries. If it is executed, a result arrives in the register in the
field rd of the word, and it is the same for both; a store writes the same bytes at the same
address. That says nothing of the register in the field rd if the instruction is a fence or is not
executed: each machine then keeps in its registers above zero what it had there. -/
theorem execute_reads_within (buffer : ByteArray) (offset : Int64) (first second : Machine)
    (known : (decode buffer offset).isKnown = true)
    (agree : first.AgreeOnReads second (decode buffer offset)
      (wordAt buffer offset.toNatClampNeg)) :
    let instruction := decode buffer offset
    let word := wordAt buffer offset.toNatClampNeg
    let after := (first.execute instruction).2
    let other := (second.execute instruction).2
    (first.execute instruction).1 = (second.execute instruction).1 ∧ after.pc = other.pc ∧
      (∃ deliveries, after.sink = hear first.sink deliveries ∧
        other.sink = hear second.sink deliveries) ∧
      ((first.execute instruction).1 = .continued →
        (instruction.operation.HasResult →
          after.registers.read word.rd.toFin = other.registers.read word.rd.toFin) ∧
        ∀ width, instruction.operation.storeWidth? = some width →
          let address := first.storeAddress word
          let bytes := Bytes.ofNumber width (first.registerValue word.rs2.toFin).toNat
          second.storeAddress word = address ∧
            (address ≠ 0x10000 →
              after.memory = Bytes.overwrite first.memory address.toNat bytes ∧
                other.memory = Bytes.overwrite second.memory address.toNat bytes)) ∧
      (instruction.operation = .fence ∨ (first.execute instruction).1 ≠ .continued →
        ∀ index, index ≠ 0 →
          after.registers.read index = first.registers.read index ∧
            other.registers.read index = second.registers.read index) := by
  intro instruction word after other
  obtain ⟨opcode, decoded, found, certain⟩ := (parcel_decode buffer offset).exists_opcode known
  have decoded : instruction = decodeWord word offset := decoded
  have agree : first.AgreeOnReads second instruction word := agree
  clear_value instruction
  subst decoded
  have same := agree.effect?_eq found certain
  have outcome := outcome_execute_congr same
  refine ⟨outcome, pc_execute_congr same agree.pc, ⟨_, sink_execute first _, ?_⟩,
    fun completed => ⟨fun result => ?_, fun width written => ?_⟩, fun idle index positive => ?_⟩
  · rw [delivered?_congr same]
    exact sink_execute second _
  · obtain ⟨effect, works⟩ := exists_effect_of_continued (outcome.symm.trans completed)
    have destination := destination_decodeWord found certain offset result
    exact read_written_congr same works
      ((written?_eq_some_iff works).mpr ⟨result, destination.symm⟩)
  · have alsoCompleted := outcome.symm.trans completed
    have stored := register_of_storeWidth found certain offset written
    have reached := fun machine => reached_of_storeWidth found certain offset machine written
    -- The sources of format S are the base of the address and the register that is stored.
    obtain rfl := opcode_of_storeWidth found certain offset written
    have sources := agree.registers .s (format?_decodeWord found offset)
    have base := sources word.rs1.toFin List.mem_cons_self
    have value := sources word.rs2.toFin (List.mem_cons_of_mem _ List.mem_cons_self)
    have address : second.storeAddress word = first.storeAddress word :=
      congrArg (· + _) base.symm
    refine ⟨address, fun elsewhere => ⟨?_, ?_⟩⟩
    · rw [← reached first] at elsewhere ⊢
      rw [← stored]
      exact (memory_execute_of_store completed written elsewhere).2
    · rw [← address, ← reached second] at elsewhere ⊢
      rw [value, ← stored]
      exact (memory_execute_of_store alsoCompleted written elsewhere).2
  · exact ⟨read_execute_of_idle idle positive,
      read_execute_of_idle (idle.imp_right fun failed => outcome ▸ failed) positive⟩

/-- A load of the last word of memory into its own base register, and a store of a byte, on machines
that differ in a register and in the bytes before. -/
theorem execute_reads_within_last_word :
    let buffer : ByteArray := ⟨#[0x83, 0xa2, 0x02, 0x00, 0xa3, 0x80, 0x52, 0x00]⟩
    let plain : Machine := { memory := ⟨#[0, 0, 0, 0, 1, 2, 3, 4]⟩ }
    let filled : Machine := { memory := ⟨#[9, 9, 9, 9, 1, 2, 3, 4]⟩ }
    let first := (plain.pokeRegister 5 4).pokeRegister 6 1
    let second := (filled.pokeRegister 5 4).pokeRegister 6 2
    (first.execute (decode buffer 0)).2.registers.read 5 = 0x04030201 ∧
      (second.execute (decode buffer 0)).2.registers.read 5 = 0x04030201 ∧
      (first.execute (decode buffer 4)).2.memory = Bytes.overwrite first.memory 5 [4] ∧
      (second.execute (decode buffer 4)).2.memory = Bytes.overwrite second.memory 5 [4] := by
  intro buffer plain filled first second
  have loads : (decode buffer 0).operation = .lw := by decide +kernel
  have stores : (decode buffer 4).operation = .sb := by decide +kernel
  have loaded : first.AgreeOnReads second (decode buffer 0) (wordAt buffer 0) := by
    have format : (decode buffer 0).format? = some .i := by decide +kernel
    refine ⟨rfl, rfl, fun other recorded => ?_, fun width read => ?_⟩
    · obtain rfl := Option.some.inj (format.symm.trans recorded)
      decide +kernel
    · rw [loads] at read
      cases read
      decide +kernel
  have stored : first.AgreeOnReads second (decode buffer 4) (wordAt buffer 4) := by
    have format : (decode buffer 4).format? = some .s := by decide +kernel
    refine ⟨rfl, rfl, fun other recorded => ?_, fun width read => ?_⟩
    · obtain rfl := Option.some.inj (format.symm.trans recorded)
      decide +kernel
    · rw [stores] at read
      cases read
  have loading : (first.execute (decode buffer 0)).1 = .continued := by decide +kernel
  have storing : (first.execute (decode buffer 4)).1 = .continued := by decide +kernel
  have result : (first.execute (decode buffer 0)).2.registers.read 5 = 0x04030201 := by
    decide +kernel
  have field : (wordAt buffer (0 : Int64).toNatClampNeg).rd.toFin = 5 := by decide +kernel
  have same := ((execute_reads_within buffer 0 first second (by decide +kernel) loaded).2.2.2.1
    loading).1 (by decide +kernel)
  have written := (((execute_reads_within buffer 4 first second (by decide +kernel) stored).2.2.2.1
    storing).2 1 (by decide +kernel)).2 (by decide +kernel)
  have address : (first.storeAddress (wordAt buffer (4 : Int64).toNatClampNeg)).toNat = 5 := by
    decide +kernel
  have bytes : Bytes.ofNumber 1 (first.registerValue
      (wordAt buffer (4 : Int64).toNatClampNeg).rs2.toFin).toNat = [4] := by decide +kernel
  rw [field] at same
  rw [address, bytes] at written
  exact ⟨result, same.symm.trans result, written⟩

/-- The register in the field rd of a fence, or of a load that fails, is not determined by what the
word reads. -/
theorem destination_not_determined :
    let buffer : ByteArray := ⟨#[0x8f, 0x02, 0x00, 0x00, 0x83, 0x22, 0x40, 0x06]⟩
    let machine : Machine := { memory := buffer }
    let first := machine.pokeRegister 5 1
    let second := machine.pokeRegister 5 2
    ((decode buffer 0).operation = .fence ∧ (wordAt buffer 0).rd.toFin = 5 ∧
        first.AgreeOnReads second (decode buffer 0) (wordAt buffer 0) ∧
        (first.execute (decode buffer 0)).1 = .continued ∧
        (first.execute (decode buffer 0)).2.registers.read 5 = 1 ∧
        (second.execute (decode buffer 0)).2.registers.read 5 = 2) ∧
      (decode buffer 4).operation = .lw ∧ (wordAt buffer 4).rd.toFin = 5 ∧
        first.AgreeOnReads second (decode buffer 4) (wordAt buffer 4) ∧
        (first.execute (decode buffer 4)).1 = .trapped (.memoryFault 100 4) ∧
        (first.execute (decode buffer 4)).2.registers.read 5 = 1 ∧
        (second.execute (decode buffer 4)).2.registers.read 5 = 2 := by
  intro buffer machine first second
  have agree : ∀ offset : Int64, (decode buffer offset).format? = some .i →
      5 ∉ Format.i.sources (wordAt buffer offset.toNatClampNeg) →
      first.AgreeOnReads second (decode buffer offset)
        (wordAt buffer offset.toNatClampNeg) := by
    intro offset format unread
    refine agreeOnReads_pokeRegister machine 1 2 fun other recorded => ?_
    obtain rfl := Option.some.inj (format.symm.trans recorded)
    exact unread
  refine ⟨⟨by decide +kernel, by decide +kernel, agree 0 (by decide +kernel) (by decide +kernel),
    by decide +kernel, by decide +kernel, by decide +kernel⟩, by decide +kernel,
    by decide +kernel, agree 4 (by decide +kernel) (by decide +kernel), by decide +kernel,
    by decide +kernel, by decide +kernel⟩

end Machine

end Hart
