/-
This file proves that two instructions put together any constant of 32 bits, and any address about
as far away as such a constant reaches. The first brings twenty bits into place and the second adds
twelve, which it takes as a signed number. So the upper half is the number rounded to a multiple of
4096 and not the number cut off, and the lower half may take away what rounding added.

Rounding overflows where it leads beyond the greatest number of 32 bits: the upper half of such a
constant is the least one there is, and the sum is too small by `2 ^ 32`. For constants this does
not matter, because the second instruction adds words, which wrap around at that very distance. For
addresses it does, and they reach up to the last distance that is not rounded up.

What one instruction does is read off the reference, where it is a register written and a program
counter moved, and said of the machine as a whole. After that the second instruction is known to be
where it was.
-/

import Hart.Proofs.Execution

namespace Hart

/-! ### The halves of a number -/

/-- The upper twenty of 32 bits, rounded to the nearest so that a signed lower half makes up for the
rest. -/
def upperHalf (number : Int) : BitVec 20 :=
  BitVec.ofInt 20 ((number + 0x800) / 0x1000)

/-- The lower twelve bits. -/
def lowerHalf (number : Int) : BitVec 12 :=
  BitVec.ofInt 12 number

/-- The halves make up the number to the width of a word. -/
theorem halves_bmod (number : Int) :
    (4096 * (upperHalf number).toInt + (lowerHalf number).toInt).bmod (2 ^ 32) =
      number.bmod (2 ^ 32) := by
  rw [upperHalf, lowerHalf, BitVec.toInt_ofInt, BitVec.toInt_ofInt]
  simp only [Int.bmod_def]
  omega

/-- Where rounding does not overflow, they make it up altogether. -/
theorem halves_eq {number : Int} (low : -2 ^ 31 - 2 ^ 11 ≤ number)
    (high : number ≤ 2 ^ 31 - 2 ^ 11 - 1) :
    4096 * (upperHalf number).toInt + (lowerHalf number).toInt = number := by
  rw [upperHalf, lowerHalf, BitVec.toInt_ofInt, BitVec.toInt_ofInt]
  simp only [Int.bmod_def]
  omega

theorem extractLsb_ofInt (number : Int) :
    (BitVec.ofInt 64 number).extractLsb 31 0 = BitVec.ofInt 32 number := by
  have low : (BitVec.ofInt 64 number).extractLsb 31 0 = (BitVec.ofInt 64 number).setWidth 32 :=
    (BitVec.setWidth_eq_extractLsb' (by decide)).symm
  apply BitVec.eq_of_toInt_eq
  rw [low, ← BitVec.signExtend_eq_setWidth_of_le _ (by decide),
    BitVec.toInt_signExtend_eq_toInt_bmod_of_le _ (by decide), BitVec.toInt_ofInt,
    BitVec.toInt_ofInt, Int.bmod_bmod_of_dvd (by decide)]

/-- The upper half as a register value. -/
theorem signExtend_upper (upper : BitVec 20) :
    (upper ++ 0#12).signExtend 64 = BitVec.ofInt 64 (4096 * upper.toInt) :=
  congrArg (BitVec.ofInt 64) (toInt_upper upper)

/-- The sum of the halves as words is the number. -/
theorem halves_word {number : Int} (low : -2 ^ 31 ≤ number) (high : number < 2 ^ 31) :
    (((upperHalf number ++ 0#12).signExtend 64).extractLsb 31 0 +
        ((lowerHalf number).signExtend 64).extractLsb 31 0).signExtend 64 =
      BitVec.ofInt 64 number := by
  have whole : (((upperHalf number ++ 0#12).signExtend 64).extractLsb 31 0 +
      ((lowerHalf number).signExtend 64).extractLsb 31 0).toInt = number := by
    rw [signExtend_upper, BitVec.signExtend, extractLsb_ofInt, extractLsb_ofInt, ← BitVec.ofInt_add,
      BitVec.toInt_ofInt, halves_bmod]
    exact Int.bmod_eq_of_le (by omega) (by omega)
  exact congrArg (BitVec.ofInt 64) whole

/-- The sum of the halves as doublewords is the number. -/
theorem halves_doubleword {number : Int} (low : -2 ^ 31 - 2 ^ 11 ≤ number)
    (high : number ≤ 2 ^ 31 - 2 ^ 11 - 1) :
    (upperHalf number ++ 0#12).signExtend 64 + (lowerHalf number).signExtend 64 =
      BitVec.ofInt 64 number := by
  rw [signExtend_upper, BitVec.signExtend, ← BitVec.ofInt_add, halves_eq low high]

/-! ### Four words -/

namespace Word

/-- The word of `lui rd, upper`. -/
def lui (rd : BitVec 5) (upper : BitVec 20) : Word :=
  ofUpper upper rd Opcode.lui.bits

/-- The word of `auipc rd, upper`. -/
def auipc (rd : BitVec 5) (upper : BitVec 20) : Word :=
  ofUpper upper rd Opcode.auipc.bits

/-- The word of `addiw rd, rs1, lower`. -/
def addiw (rd rs1 : BitVec 5) (lower : BitVec 12) : Word :=
  ofI lower rs1 0b000 rd Opcode.opImm32.bits

/-- The word of `jalr rd, lower(rs1)`. -/
def jalr (rd rs1 : BitVec 5) (lower : BitVec 12) : Word :=
  ofI lower rs1 0b000 rd Opcode.jalr.bits

end Word

namespace Reference

variable (state : State) (rd rs1 : BitVec 5) (upper : BitVec 20) (lower : BitVec 12)

theorem step_lui :
    step state (Word.lui rd upper) =
      (.retired, (state.write rd ((upper ++ 0#12).signExtend 64)).next) := by
  have low : opcode (Word.lui rd upper) = Opcode.lui.bits := Word.low_ofUpper _ _ _
  unfold step
  rw [low]
  show compute state (Word.ofUpper _ _ _).rd
    (some (((Word.ofUpper _ _ _).upper ++ 0#12).signExtend 64)) = _
  rw [Word.rd_ofUpper, Word.upper_ofUpper]
  rfl

theorem step_auipc :
    step state (Word.auipc rd upper) =
      (.retired, (state.write rd (state.pc + (upper ++ 0#12).signExtend 64)).next) := by
  have low : opcode (Word.auipc rd upper) = Opcode.auipc.bits := Word.low_ofUpper _ _ _
  unfold step
  rw [low]
  show compute state (Word.ofUpper _ _ _).rd
    (some (state.pc + ((Word.ofUpper _ _ _).upper ++ 0#12).signExtend 64)) = _
  rw [Word.rd_ofUpper, Word.upper_ofUpper]
  rfl

theorem step_addiw :
    step state (Word.addiw rd rs1 lower) =
      (.retired, (state.write rd (((state.register rs1).extractLsb 31 0 +
        (lower.signExtend 64).extractLsb 31 0).signExtend 64)).next) := by
  have low : opcode (Word.addiw rd rs1 lower) = Opcode.opImm32.bits := Word.low_ofFields _ _ _ _ _ _
  unfold step
  rw [low]
  show compute state (Word.ofI _ _ _ _ _).rd (opImm32? _ (Word.ofI _ _ _ _ _).funct3 _
    (state.register (Word.ofI _ _ _ _ _).rs1) ((Word.ofI _ _ _ _ _).immediateI.signExtend 64)) = _
  rw [Word.rd_ofI, Word.funct3_ofI, Word.rs1_ofI, Word.immediateI_ofI]
  rfl

theorem step_jalr :
    step state (Word.jalr rd rs1 lower) =
      (.retired, (state.write rd (state.pc + 4)).goto
        ((state.register rs1 + lower.signExtend 64) &&& ~~~1)) := by
  have low : opcode (Word.jalr rd rs1 lower) = Opcode.jalr.bits := Word.low_ofFields _ _ _ _ _ _
  unfold step
  rw [low]
  show (if (Word.ofI _ _ _ _ _).funct3 = 0 then jump state (Word.ofI _ _ _ _ _).rd
    ((state.register (Word.ofI _ _ _ _ _).rs1 + (Word.ofI _ _ _ _ _).immediateI.signExtend 64) &&&
      ~~~1) else _) = _
  rw [Word.rd_ofI, Word.funct3_ofI, Word.rs1_ofI, Word.immediateI_ofI]
  rfl

end Reference

namespace Machine

variable {machine : Machine}

/-! ### One instruction -/

/-- Whether memory holds a word at an address. -/
structure Holds (machine : Machine) (address : Int64) (word : Word) : Prop where
  start : 0 ≤ address.toInt
  finish : address.toInt + 4 ≤ machine.memory.size
  word : wordAt machine.memory address.toNatClampNeg = word

/-- The machine with a register written and the program counter moved. -/
def moved (machine : Machine) (rd : BitVec 5) (value target : BitVec 64) : Machine :=
  { (machine.setRegister rd.toFin (.ofBitVec value)).clearZero with pc := .ofBitVec target }

theorem view_moved (rd : BitVec 5) (value target : BitVec 64) :
    (machine.moved rd value target).view = (machine.view.write rd value).goto target := by
  show (machine.setRegister rd.toFin (.ofBitVec value)).clearZero.view.goto target = _
  rw [view_clearZero, view_setRegister]

theorem read_moved {rd : BitVec 5} (value target : BitVec 64) {index : RegisterIndex}
    (positive : index ≠ 0) :
    (machine.moved rd value target).registers.read index =
      if index = rd.toFin then .ofBitVec value else machine.registers.read index := by
  refine (Registers.read_clearZero_of_ne _ positive).trans ?_
  refine (Registers.read_write _ _ _ _).trans ?_
  by_cases written : index = rd.toFin
  · rw [if_pos ⟨written.symm, written ▸ positive⟩, if_pos written]
  · rw [if_neg fun both => written both.1.symm, if_neg written]

/-- The register that was written, as the reference sees it. -/
theorem register_moved {rd : BitVec 5} (positive : rd ≠ 0) (value target : BitVec 64) :
    (machine.moved rd value target).view.register rd = value := by
  rw [view_moved]
  exact if_pos ⟨rfl, positive⟩

/-- Whether two machines differ in some registers only, apart from the program counter and register
zero. -/
structure DiffersIn (machine other : Machine) (changed : List RegisterIndex) : Prop where
  registers : ∀ index, index ≠ 0 → index ∉ changed →
    other.registers.read index = machine.registers.read index
  memory : other.memory = machine.memory
  sink : other.sink = machine.sink

theorem DiffersIn.trans {second third : Machine} {changed : List RegisterIndex}
    (left : machine.DiffersIn second changed) (right : second.DiffersIn third changed) :
    machine.DiffersIn third changed where
  registers index positive other :=
    (right.registers index positive other).trans (left.registers index positive other)
  memory := right.memory.trans left.memory
  sink := right.sink.trans left.sink

theorem differsIn_moved (machine : Machine) {rd : BitVec 5} (value target : BitVec 64)
    {changed : List RegisterIndex} (member : rd.toFin ∈ changed) :
    machine.DiffersIn (machine.moved rd value target) changed where
  registers index positive other := by
    rw [read_moved value target positive, if_neg]
    rintro rfl
    exact other member
  memory := rfl
  sink := rfl

theorem outcome_of_retired {outcome : Outcome} (retired : outcome.ending = .retired) :
    outcome = .continued := by
  cases outcome with
  | continued => rfl
  | trapped trap => cases trap <;> cases retired

/-- Where the reference sees a register written and the program counter moved, this is all that
happened. -/
theorem step_eq_moved_of_seen {rd : BitVec 5} {value target : BitVec 64}
    (same : seen machine.step = (.retired, (machine.view.write rd value).goto target)) :
    machine.step = (.continued, machine.moved rd value target) := by
  obtain ⟨ending, view⟩ := Prod.mk.inj same
  have zero : (machine.moved rd value target).registers.read 0 = 0 :=
    (Registers.read_clearZero _ 0).trans (if_pos rfl)
  have views : machine.step.2.view = (machine.moved rd value target).view :=
    view.trans (view_moved rd value target).symm
  exact Prod.ext (outcome_of_retired ending)
    (eq_of_view (machine.read_zero_execute machine.fetch) zero views)

/-- What the reference does with a word that memory holds at the program counter, the machine does
too. -/
theorem step_eq_moved {word : Word} {opcode : Opcode} {rd : BitVec 5} {value target : BitVec 64}
    (holds : machine.Holds machine.pc word) (low : word.low = opcode.bits)
    (executes : Reference.step machine.view word =
      (.retired, (machine.view.write rd value).goto target)) :
    machine.step = (.continued, machine.moved rd value target) := by
  obtain ⟨start, finish, rfl⟩ := holds
  have standard := Word.isStandard_of_low low
  have fetched : machine.fetch = decodeWord _ machine.pc :=
    decode_of_isStandard start finish standard
  refine step_eq_moved_of_seen ?_
  rw [step, fetched, ← executes]
  exact machine.seen_execute standard

section

variable {rd rs1 : BitVec 5} {upper : BitVec 20} {lower : BitVec 12}

theorem step_of_lui (holds : machine.Holds machine.pc (Word.lui rd upper)) :
    machine.step =
      (.continued,
        machine.moved rd ((upper ++ 0#12).signExtend 64) (machine.pc + 4).toBitVec) :=
  step_eq_moved holds (Word.low_ofUpper _ _ _) (Reference.step_lui _ _ _)

theorem step_of_auipc (holds : machine.Holds machine.pc (Word.auipc rd upper)) :
    machine.step =
      (.continued, machine.moved rd (machine.pc.toBitVec + (upper ++ 0#12).signExtend 64)
        (machine.pc + 4).toBitVec) :=
  step_eq_moved holds (Word.low_ofUpper _ _ _) (Reference.step_auipc _ _ _)

theorem step_of_addiw (holds : machine.Holds machine.pc (Word.addiw rd rs1 lower)) :
    machine.step =
      (.continued, machine.moved rd (((machine.view.register rs1).extractLsb 31 0 +
        (lower.signExtend 64).extractLsb 31 0).signExtend 64) (machine.pc + 4).toBitVec) :=
  step_eq_moved holds (Word.low_ofFields _ _ _ _ _ _) (Reference.step_addiw _ _ _ _)

theorem step_of_jalr (holds : machine.Holds machine.pc (Word.jalr rd rs1 lower)) :
    machine.step =
      (.continued, machine.moved rd (machine.pc + 4).toBitVec
        ((machine.view.register rs1 + lower.signExtend 64) &&& ~~~1)) :=
  step_eq_moved holds (Word.low_ofFields _ _ _ _ _ _) (Reference.step_jalr _ _ _ _)

end

/-! ### Two instructions -/

theorem add_four_add_four (address : Int64) : address + 4 + 4 = address + 8 :=
  Int64.add_assoc address 4 4

/-- The second instruction is where it was before the first. -/
theorem Holds.moved {address : Int64} {word : Word} (holds : machine.Holds address word)
    (rd : BitVec 5) (value target : BitVec 64) :
    (machine.moved rd value target).Holds address word :=
  ⟨holds.start, holds.finish, holds.word⟩

/-- An upper half and a lower half that is added to it as a word. -/
theorem steps_of_constant {rd : BitVec 5} (positive : rd ≠ 0) {constant : Int}
    (low : -2 ^ 31 ≤ constant) (high : constant < 2 ^ 31)
    (first : machine.Holds machine.pc (Word.lui rd (upperHalf constant)))
    (second : machine.Holds (machine.pc + 4) (Word.addiw rd rd (lowerHalf constant))) :
    let between := machine.moved rd ((upperHalf constant ++ 0#12).signExtend 64)
      (machine.pc + 4).toBitVec
    machine.step = (.continued, between) ∧
      between.step =
        (.continued, between.moved rd (BitVec.ofInt 64 constant) (machine.pc + 8).toBitVec) := by
  intro between
  have held : between.Holds between.pc (Word.addiw rd rd (lowerHalf constant)) :=
    second.moved rd _ _
  have added := step_of_addiw held
  have upper : between.view.register rd = (upperHalf constant ++ 0#12).signExtend 64 :=
    register_moved positive _ _
  have behind : between.pc + 4 = machine.pc + 8 := add_four_add_four machine.pc
  rw [upper, halves_word low high, behind] at added
  exact ⟨step_of_lui first, added⟩

/-- An upper half that is added to the program counter, and a jump by the lower half from there. -/
theorem steps_of_address {rd base : BitVec 5} (positive : base ≠ 0) {offset : Int}
    (low : -2 ^ 31 - 2 ^ 11 ≤ offset) (high : offset ≤ 2 ^ 31 - 2 ^ 11 - 1)
    (first : machine.Holds machine.pc (Word.auipc base (upperHalf offset)))
    (second : machine.Holds (machine.pc + 4) (Word.jalr rd base (lowerHalf offset))) :
    let between := machine.moved base
      (machine.pc.toBitVec + (upperHalf offset ++ 0#12).signExtend 64) (machine.pc + 4).toBitVec
    machine.step = (.continued, between) ∧
      between.step =
        (.continued, between.moved rd (machine.pc + 8).toBitVec
          ((machine.pc + Int64.ofInt offset) &&& ~~~1).toBitVec) := by
  intro between
  have held : between.Holds between.pc (Word.jalr rd base (lowerHalf offset)) :=
    second.moved base _ _
  have jumped := step_of_jalr held
  have upper : between.view.register base =
      machine.pc.toBitVec + (upperHalf offset ++ 0#12).signExtend 64 := register_moved positive _ _
  have behind : between.pc + 4 = machine.pc + 8 := add_four_add_four machine.pc
  rw [upper, BitVec.add_assoc, halves_doubleword low high, behind] at jumped
  exact ⟨step_of_auipc first, jumped⟩

/-- Two instructions put every constant together, and every address. The halves of a constant of 32
bits, behind `lui` and `addiw`, leave the constant in the register, extended by its sign. The halves
of an offset, behind `auipc` and `jalr`, lead as far from the first of the two as the offset says,
up to the lowest bit, and link to the instruction behind the second, also where the base register is
the one that receives the link. Both instructions are executed, whatever the state they start from,
and change nothing else. -/
theorem halves_materialise (machine : Machine) :
    (∀ (constant : Int) (rd : BitVec 5), -2 ^ 31 ≤ constant → constant < 2 ^ 31 → rd ≠ 0 →
        machine.Holds machine.pc (Word.lui rd (upperHalf constant)) →
        machine.Holds (machine.pc + 4) (Word.addiw rd rd (lowerHalf constant)) →
          ∃ between last, machine.step = (.continued, between) ∧
            between.step = (.continued, last) ∧
            (last.registers.read rd.toFin).toInt64.toInt = constant ∧
            last.pc = machine.pc + 8 ∧ machine.DiffersIn last [rd.toFin]) ∧
      (∀ (offset : Int) (rd base : BitVec 5), -2 ^ 31 - 2 ^ 11 ≤ offset →
        offset ≤ 2 ^ 31 - 2 ^ 11 - 1 → base ≠ 0 →
        machine.Holds machine.pc (Word.auipc base (upperHalf offset)) →
        machine.Holds (machine.pc + 4) (Word.jalr rd base (lowerHalf offset)) →
          ∃ between last, machine.step = (.continued, between) ∧
            between.step = (.continued, last) ∧
            last.pc = (machine.pc + Int64.ofInt offset) &&& ~~~1 ∧
            (rd ≠ 0 → last.registers.read rd.toFin = (machine.pc + 8).toUInt64) ∧
            machine.DiffersIn last [base.toFin, rd.toFin]) := by
  have named : ∀ {register : BitVec 5}, register ≠ 0 → register.toFin ≠ 0 :=
    fun positive zero => positive (congrArg BitVec.ofFin zero)
  refine ⟨fun constant rd low high positive first second => ?_,
    fun offset rd base low high positive first second => ?_⟩
  · obtain ⟨loaded, added⟩ := steps_of_constant positive low high first second
    have member : rd.toFin ∈ [rd.toFin] := List.mem_singleton_self _
    refine ⟨_, _, loaded, added, ?_, rfl,
      (differsIn_moved machine _ _ member).trans (differsIn_moved _ _ _ member)⟩
    rw [read_moved _ _ (named positive), if_pos rfl]
    exact BitVec.toInt_ofInt_eq_self (by decide) (by omega) (by omega)
  · obtain ⟨added, jumped⟩ := steps_of_address positive low high first second
    refine ⟨_, _, added, jumped, rfl, fun positive => ?_,
      (differsIn_moved machine _ _ (by simp)).trans (differsIn_moved _ _ _ (by simp))⟩
    rw [read_moved _ _ (named positive), if_pos rfl]
    rfl

/-- The greatest constant, whose upper half is the least there is. Behind it stands the greatest
offset, which is odd, over the register that receives the link. -/
theorem halves_materialise_greatest :
    let memory : ByteArray := ⟨#[0xb7, 0x02, 0x00, 0x80, 0x9b, 0x82, 0xf2, 0xff,
      0x97, 0xf0, 0xff, 0x7f, 0xe7, 0x80, 0xf0, 0x7f]⟩
    let machine : Machine := { memory }
    let later : Machine := { pc := 8, memory }
    (∃ between last, machine.step = (.continued, between) ∧ between.step = (.continued, last) ∧
        (last.registers.read 5).toInt64.toInt = 2147483647 ∧ last.pc = 8) ∧
      ∃ between last, later.step = (.continued, between) ∧ between.step = (.continued, last) ∧
        last.pc = 0x7ffff806 ∧ last.registers.read 1 = 16 := by
  intro memory machine later
  have lui : machine.Holds machine.pc (Word.lui 5 (upperHalf 2147483647)) :=
    ⟨by decide, by decide, by decide⟩
  have addiw : machine.Holds (machine.pc + 4) (Word.addiw 5 5 (lowerHalf 2147483647)) :=
    ⟨by decide, by decide, by decide⟩
  have auipc : later.Holds later.pc (Word.auipc 1 (upperHalf 2147481599)) :=
    ⟨by decide, by decide, by decide⟩
  have jalr : later.Holds (later.pc + 4) (Word.jalr 1 1 (lowerHalf 2147481599)) :=
    ⟨by decide, by decide, by decide⟩
  obtain ⟨between, last, first, second, constant, pc, -⟩ :=
    (halves_materialise machine).1 2147483647 5 (by decide) (by decide) (by decide) lui addiw
  obtain ⟨between', last', first', second', target, link, -⟩ :=
    (halves_materialise later).2 2147481599 1 1 (by decide) (by decide) (by decide) auipc jalr
  exact ⟨⟨between, last, first, second, constant, pc⟩, between', last', first', second',
    target.trans (by decide), link (by decide)⟩

end Machine

end Hart
