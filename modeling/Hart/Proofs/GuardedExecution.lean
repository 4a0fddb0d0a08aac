/-
This file executes instructions with guards. Operands are looked up by position and registers by
number, also for instructions that were built by hand, and the amount of a shift is masked by the
width of what is shifted right before it is used.

A handler is chosen by an operation and applied to an instruction, and nothing makes the two fit. So
what is proved about handlers holds for every operation with every instruction. A step with guards
is the step without them, and since no step changes the size of memory, so are as many as one likes.
-/

import Hart.Proofs.GuardedAccesses
import Hart.Proofs.GuardedDecoding
import Hart.Proofs.Arithmetic
import Hart.Proofs.History
import Hart.Instruction.Text

namespace Hart

namespace Guarded

/-! ### Shifts -/

/-- A shift of a doubleword by the low six bits of its amount. -/
def doubleword? (shift? : BitVec 64 → Nat → Option (BitVec 64)) (value amount : UInt64) :
    Option UInt64 := do
  let moved ← shift? value.toBitVec (amount &&& 0x3f).toNat
  return .ofBitVec moved

/-- A shift of the low half by the low five bits of its amount. The result is extended by its
sign. -/
def word? (shift? : BitVec 32 → Nat → Option (BitVec 32)) (value amount : UInt64) :
    Option UInt64 := do
  let moved ← shift? value.toUInt32.toBitVec (amount &&& 0x1f).toNat
  return .ofBitVec (moved.signExtend 64)

/-- The shift of an operation, if it is one. -/
def shift? : Operation → Option (UInt64 → UInt64 → Option UInt64)
  | .slli | .sll => some (doubleword? shiftLeft?)
  | .srli | .srl => some (doubleword? shiftRight?)
  | .srai | .sra => some (doubleword? shiftRightArithmetic?)
  | .slliw | .sllw => some (word? shiftLeft?)
  | .srliw | .srlw => some (word? shiftRight?)
  | .sraiw | .sraw => some (word? shiftRightArithmetic?)
  | _ => none

/-- The result of an operation on two values. What is no shift wraps around or does not carry. -/
def combined? (operation : Operation) (combine : UInt64 → UInt64 → UInt64)
    (first second : UInt64) : Option UInt64 :=
  match shift? operation with
  | some shift => shift first second
  | none => return combine first second

/-- The function on values that an action applies. -/
def combination? : Action → Option (UInt64 → UInt64 → UInt64)
  | .immediate combine | .register combine => some combine
  | _ => none

section

variable (value amount : UInt64)

theorem toNat_doublewordAmount :
    (amount &&& 0x3f).toNat = (amount.toBitVec.extractLsb 5 0).toNat := by
  rw [BitVec.extractLsb_toNat]
  exact (UInt64.toNat_and amount 0x3f).trans (Nat.and_two_pow_sub_one_eq_mod amount.toNat 6)

theorem toNat_wordAmount : (amount &&& 0x1f).toNat = (amount.toBitVec.extractLsb 4 0).toNat := by
  rw [BitVec.extractLsb_toNat]
  exact (UInt64.toNat_and amount 0x1f).trans (Nat.and_two_pow_sub_one_eq_mod amount.toNat 5)

/-- A mask of six bits keeps the amount below 64. -/
theorem doubleword?_eq {guarded? : BitVec 64 → Nat → Option (BitVec 64)}
    {plain : BitVec 64 → Nat → BitVec 64}
    (passes : ∀ bits amount, amount < 64 → guarded? bits amount = some (plain bits amount)) :
    doubleword? guarded? value amount =
      some (.ofBitVec (plain value.toBitVec (amount.toBitVec.extractLsb 5 0).toNat)) := by
  unfold doubleword?
  rw [toNat_doublewordAmount, bind_of_eq_some (passes _ _ (BitVec.isLt _))]
  rfl

/-- A mask of five bits keeps the amount below 32. -/
theorem word?_eq {guarded? : BitVec 32 → Nat → Option (BitVec 32)}
    {plain : BitVec 32 → Nat → BitVec 32}
    (passes : ∀ bits amount, amount < 32 → guarded? bits amount = some (plain bits amount)) :
    word? guarded? value amount =
      some (.ofBitVec ((plain (value.toBitVec.extractLsb 31 0)
        (amount.toBitVec.extractLsb 4 0).toNat).signExtend 64)) := by
  unfold word?
  rw [toNat_wordAmount, bind_of_eq_some (passes _ _ (BitVec.isLt _))]
  rfl

theorem doubleword?_shiftLeft :
    doubleword? shiftLeft? value amount = some (Arithmetic.shiftLeft value amount) := by
  rw [doubleword?_eq value amount fun bits amount => shiftLeft?_of_lt bits,
    ← BitVec.shiftLeft_eq', ← Arithmetic.toBitVec_shiftLeft]

theorem doubleword?_shiftRight :
    doubleword? shiftRight? value amount = some (Arithmetic.shiftRight value amount) := by
  rw [doubleword?_eq value amount fun bits amount => shiftRight?_of_lt bits,
    ← BitVec.ushiftRight_eq', ← Arithmetic.toBitVec_shiftRight]

theorem doubleword?_shiftRightArithmetic :
    doubleword? shiftRightArithmetic? value amount =
      some (Arithmetic.shiftRightArithmetic value amount) := by
  rw [doubleword?_eq value amount fun bits amount => shiftRightArithmetic?_of_lt bits,
    ← BitVec.sshiftRight', ← Arithmetic.toBitVec_shiftRightArithmetic]

theorem word?_shiftLeft :
    word? shiftLeft? value amount = some (Arithmetic.shiftLeftWord value amount) := by
  rw [word?_eq value amount fun bits amount => shiftLeft?_of_lt bits,
    ← BitVec.shiftLeft_eq', ← Arithmetic.toBitVec_shiftLeftWord]

theorem word?_shiftRight :
    word? shiftRight? value amount = some (Arithmetic.shiftRightWord value amount) := by
  rw [word?_eq value amount fun bits amount => shiftRight?_of_lt bits,
    ← BitVec.ushiftRight_eq', ← Arithmetic.toBitVec_shiftRightWord]

theorem word?_shiftRightArithmetic :
    word? shiftRightArithmetic? value amount =
      some (Arithmetic.shiftRightArithmeticWord value amount) := by
  rw [word?_eq value amount fun bits amount => shiftRightArithmetic?_of_lt bits,
    ← BitVec.sshiftRight', ← Arithmetic.toBitVec_shiftRightArithmeticWord]

/-- The shift of an operation is the function that its action applies. -/
theorem combined?_eq {operation : Operation} {combine : UInt64 → UInt64 → UInt64}
    (applies : operation.action?.bind combination? = some combine) (first second : UInt64) :
    combined? operation combine first second = some (combine first second) := by
  cases operation with
  | slli | sll =>
    obtain rfl := Option.some.inj applies
    exact doubleword?_shiftLeft first second
  | srli | srl =>
    obtain rfl := Option.some.inj applies
    exact doubleword?_shiftRight first second
  | srai | sra =>
    obtain rfl := Option.some.inj applies
    exact doubleword?_shiftRightArithmetic first second
  | slliw | sllw =>
    obtain rfl := Option.some.inj applies
    exact word?_shiftLeft first second
  | srliw | srlw =>
    obtain rfl := Option.some.inj applies
    exact word?_shiftRight first second
  | sraiw | sraw =>
    obtain rfl := Option.some.inj applies
    exact word?_shiftRightArithmetic first second
  | _ => rfl

end

/-! ### Handlers -/

/-- Carries out an action. Positions are those of the operand list. -/
def perform? (machine : Machine) (operation : Operation) (instruction : Instruction) :
    Action → Option (Except Trap Unit × Machine)
  | .loadUpper => do
    let immediate ← operand? instruction.operands 1
    let moved ← shiftLeft? immediate.toBitVec 12
    let after ← setRegister? machine instruction 0 (.ofBitVec moved)
    return (.ok (), after)
  | .addUpper => do
    let immediate ← operand? instruction.operands 1
    let after ← setRegister? machine instruction 0 (machine.pc + immediate).toUInt64
    return (.ok (), after)
  | .jump => do
    let offset ← operand? instruction.operands 1
    let moved := { machine with pc := machine.pc + offset }
    let after ← setRegister? moved instruction 0 (machine.following instruction).toUInt64
    return (.ok (), after)
  | .jumpRegister => do
    let base ← value? machine instruction 1
    let offset ← operand? instruction.operands 2
    let target := (base + offset.toUInt64) &&& ~~~1
    let moved := { machine with pc := target.toInt64 }
    let after ← setRegister? moved instruction 0 (machine.following instruction).toUInt64
    return (.ok (), after)
  | .branch condition => do
    let first ← value? machine instruction 0
    let second ← value? machine instruction 1
    if condition first second then do
      let offset ← operand? instruction.operands 2
      return (.ok (), { machine with pc := machine.pc + offset })
    else return (.ok (), { machine with pc := machine.following instruction })
  | .load width extend => do
    let base ← value? machine instruction 1
    let offset ← operand? instruction.operands 2
    let loaded ← load? machine (base + offset.toUInt64) width
    match loaded with
    | .ok value => do
      let after ← setRegister? machine instruction 0 (extend value)
      return (.ok (), after)
    | .error trap => return (.error trap, machine)
  | .store width => do
    let base ← value? machine instruction 0
    let offset ← operand? instruction.operands 2
    let value ← value? machine instruction 1
    store? machine (base + offset.toUInt64) width value
  | .immediate combine => do
    let first ← value? machine instruction 1
    let second ← operand? instruction.operands 2
    let result ← combined? operation combine first second.toUInt64
    let after ← setRegister? machine instruction 0 result
    return (.ok (), after)
  | .register combine => do
    let first ← value? machine instruction 1
    let second ← value? machine instruction 2
    let result ← combined? operation combine first second
    let after ← setRegister? machine instruction 0 result
    return (.ok (), after)
  | .fence => return (.ok (), machine)

/-- The handler of an operation, applied to any instruction. -/
def handle? (machine : Machine) (operation : Operation) (instruction : Instruction) :
    Option (Except Trap Unit × Machine) :=
  match operation.action? with
  | some action => perform? machine operation instruction action
  | none => return (.error (.illegalInstruction operation instruction.address), machine)

/-- What the effect of an action makes of the machine. -/
def performed (machine : Machine) (instruction : Instruction) (action : Action) :
    Except Trap Unit × Machine :=
  match machine.effect instruction action with
  | .ok effect => (.ok (), machine.apply effect)
  | .error trap => (.error trap, machine)

/-- The handler of an operation without guards. -/
def handled (machine : Machine) (operation : Operation) (instruction : Instruction) :
    Except Trap Unit × Machine :=
  match operation.action? with
  | some action => performed machine instruction action
  | none => (.error (.illegalInstruction operation instruction.address), machine)

/-- A handler never fails a guard, whatever its operands hold. -/
theorem perform?_eq {machine : Machine} (held : machine.capacity < UInt64.size)
    {operation : Operation} {action : Action} (acts : operation.action? = some action)
    (instruction : Instruction) :
    perform? machine operation instruction action =
      some (performed machine instruction action) := by
  have second : operand? instruction.operands 1 = some (instruction.immediate .second) :=
    operand?_position instruction.operands .second
  have third : operand? instruction.operands 2 = some (instruction.immediate .third) :=
    operand?_position instruction.operands .third
  have firstValue : value? machine instruction 0 = some (machine.operand instruction .first) :=
    value?_position machine instruction .first
  have secondValue : value? machine instruction 1 = some (machine.operand instruction .second) :=
    value?_position machine instruction .second
  have thirdValue : value? machine instruction 2 = some (machine.operand instruction .third) :=
    value?_position machine instruction .third
  have written (before : Machine) (value : UInt64) :
      setRegister? before instruction 0 value =
        some (before.setRegister instruction.destination value) :=
    setRegister?_position before instruction .first value
  unfold perform? performed
  cases action with
  | loadUpper =>
    dsimp only
    rw [bind_of_eq_some second, bind_of_eq_some (shiftLeft?_of_lt _ (by decide : 12 < 64)),
      bind_of_eq_some (written _ _)]
    rfl
  | addUpper =>
    dsimp only
    rw [bind_of_eq_some second, bind_of_eq_some (written _ _)]
    rfl
  | jump =>
    dsimp only
    rw [bind_of_eq_some second, bind_of_eq_some (written _ _)]
    rfl
  | jumpRegister =>
    dsimp only
    rw [bind_of_eq_some secondValue, bind_of_eq_some third, bind_of_eq_some (written _ _)]
    rfl
  | branch condition =>
    unfold Machine.effect
    dsimp only
    rw [bind_of_eq_some firstValue, bind_of_eq_some secondValue]
    split
    · rw [bind_of_eq_some third]
      rfl
    · rfl
  | load width extend =>
    unfold Machine.effect
    dsimp only
    rw [bind_of_eq_some secondValue, bind_of_eq_some third, bind_of_eq_some (load?_eq held _ _)]
    change (match machine.load (machine.effectiveAddress instruction .second) width with
      | .ok value => _
      | .error trap => _) = _
    cases machine.load (machine.effectiveAddress instruction .second) width with
    | ok value =>
      dsimp only
      rw [bind_of_eq_some (written _ _)]
      rfl
    | error trap => rfl
  | store width =>
    unfold Machine.effect
    dsimp only
    rw [bind_of_eq_some firstValue, bind_of_eq_some third, bind_of_eq_some secondValue,
      store?_eq held]
    change some (machine.store (machine.effectiveAddress instruction .first) width _) = _
    unfold Machine.store
    cases machine.write? (machine.effectiveAddress instruction .first) width
      (machine.operand instruction .second) with
    | ok write => rfl
    | error trap => rfl
  | immediate combine =>
    have applies : operation.action?.bind combination? = some combine := by rw [acts]; rfl
    dsimp only
    rw [bind_of_eq_some secondValue, bind_of_eq_some third,
      bind_of_eq_some (combined?_eq applies _ _), bind_of_eq_some (written _ _)]
    rfl
  | register combine =>
    have applies : operation.action?.bind combination? = some combine := by rw [acts]; rfl
    dsimp only
    rw [bind_of_eq_some secondValue, bind_of_eq_some thirdValue,
      bind_of_eq_some (combined?_eq applies _ _), bind_of_eq_some (written _ _)]
    rfl
  | fence => rfl

theorem handle?_eq {machine : Machine} (held : machine.capacity < UInt64.size)
    (operation : Operation) (instruction : Instruction) :
    handle? machine operation instruction = some (handled machine operation instruction) := by
  unfold handle? handled
  cases acts : operation.action? with
  | none => rfl
  | some action => exact perform?_eq held acts instruction

/-! ### Steps -/

/-- A register as text, by number. -/
def registerText? (instruction : Instruction) (position : Nat) : Option String := do
  let number ← number? instruction position
  return "x" ++ number.repr

/-- An immediate as text. -/
def immediateText? (instruction : Instruction) (position : Nat) : Option String := do
  let operand ← operand? instruction.operands position
  return Text.hexLiteral operand.toUInt64.toNat

/-- The text of an instruction. A step that succeeds reports it to whoever traces the machine. -/
def text? (instruction : Instruction) : Option String :=
  if instruction.isKnown then
    let mnemonic := instruction.operation.mnemonic
    match instruction.format? with
    | some .r => do
      let first ← registerText? instruction 0
      let second ← registerText? instruction 1
      let third ← registerText? instruction 2
      return mnemonic ++ " " ++ first ++ ", " ++ second ++ ", " ++ third
    | some .i | some .s | some .b => do
      let first ← registerText? instruction 0
      let second ← registerText? instruction 1
      let third ← immediateText? instruction 2
      return mnemonic ++ " " ++ first ++ ", " ++ second ++ ", " ++ third
    | some .u | some .j => do
      let first ← registerText? instruction 0
      let second ← immediateText? instruction 1
      return mnemonic ++ " " ++ first ++ ", " ++ second
    | none => return unknownText
  else return unknownText

/-- Executes an instruction. Register zero is cleared by its number before and after. -/
def step? (machine : Machine) (instruction : Instruction) : Option (Outcome × Machine) := do
  let registers ← put? machine.registers 0 0
  let (result, after) ← handle? { machine with registers } instruction.operation instruction
  match result with
  | .ok _ => do
    let _ ← text? instruction
    let advanced := after.advance instruction
    let registers ← put? advanced.registers 0 0
    return (.continued, { advanced with registers })
  | .error trap => do
    let registers ← put? after.registers 0 0
    return (.trapped trap, { after with registers })

theorem text?_eq (instruction : Instruction) : text? instruction = some instruction.text := by
  have register (slot : Slot) :
      registerText? instruction (position slot) = some (instruction.registerText slot) := by
    unfold registerText?
    rw [number?_position]
    rfl
  have immediate (slot : Slot) :
      immediateText? instruction (position slot) = some (instruction.immediateText slot) := by
    unfold immediateText?
    rw [operand?_position]
    rfl
  have first : registerText? instruction 0 = _ := register .first
  have second : registerText? instruction 1 = _ := register .second
  have third : registerText? instruction 2 = _ := register .third
  have second' : immediateText? instruction 1 = _ := immediate .second
  have third' : immediateText? instruction 2 = _ := immediate .third
  unfold text? Instruction.text
  cases instruction.isKnown with
  | false => rfl
  | true =>
    cases instruction.format? with
    | none => rfl
    | some format =>
      cases format with
      | r =>
        dsimp only
        rw [bind_of_eq_some first, bind_of_eq_some second, bind_of_eq_some third]
        rfl
      | i | s | b =>
        dsimp only
        rw [bind_of_eq_some first, bind_of_eq_some second, bind_of_eq_some third']
        rfl
      | u | j =>
        dsimp only
        rw [bind_of_eq_some first, bind_of_eq_some second']
        rfl

theorem step?_eq {machine : Machine} (held : machine.capacity < UInt64.size)
    (instruction : Instruction) :
    step? machine instruction = some (machine.execute instruction) := by
  have held' : machine.clearZero.capacity < UInt64.size := held
  unfold step? Machine.execute Machine.effect?
  rw [bind_of_eq_some (put?_zero machine.registers)]
  change (handle? machine.clearZero instruction.operation instruction >>= _) = _
  rw [bind_of_eq_some (handle?_eq held' instruction.operation instruction)]
  unfold handled performed
  cases instruction.operation.action? with
  | none =>
    dsimp only
    rw [bind_of_eq_some (put?_zero _)]
    rfl
  | some action =>
    dsimp only
    cases machine.clearZero.effect instruction action with
    | error trap =>
      dsimp only
      rw [bind_of_eq_some (put?_zero _)]
      rfl
    | ok effect =>
      dsimp only
      rw [bind_of_eq_some (text?_eq instruction), bind_of_eq_some (put?_zero _)]
      rfl

/-- The machine after a number of instructions at the program counter, refused ones included. -/
def stepped? (machine : Machine) : (count : Nat) → Option Machine
  | 0 => return machine
  | count + 1 => do
    let instruction ← fetch? machine
    let (_, after) ← step? machine instruction
    stepped? after count

/-- What carries the induction is the size of memory, which no step changes. -/
theorem stepped?_eq (count : Nat) :
    ∀ machine : Machine, machine.capacity < UInt64.size →
      stepped? machine count =
        some (Nat.iterate (fun machine => machine.step.2) count machine) := by
  induction count with
  | zero => exact fun machine _ => rfl
  | succ count inductionHypothesis =>
    intro machine held
    have held' : machine.step.2.capacity < UInt64.size := by
      rw [Machine.step, Machine.capacity_execute]
      exact held
    unfold stepped?
    rw [bind_of_eq_some (fetch?_eq machine), bind_of_eq_some (step?_eq held machine.fetch)]
    exact inductionHypothesis machine.step.2 held'

end Guarded

end Hart
