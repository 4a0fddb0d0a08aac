/-
This file executes instructions. A step first works out the effect of the instruction from the state
as it stands, and only then changes the state. Everything that can fail fails while the effect is
worked out, so a trap leaves the state as it was.

Where the effect does not own the program counter, the step moves it past the instruction. Which of
the two applies is read off the jump flag, also for hand-built instructions whose flag does not fit
their operation.
-/

import Hart.Machine.State
import Hart.Machine.Action
import Hart.Encoding.Decode

namespace Hart

/-- What an instruction is going to change. -/
inductive Effect where
  /-- Nothing. -/
  | none
  /-- A register receives a result. -/
  | result (destination : RegisterIndex) (value : UInt64)
  /-- The program counter moves. -/
  | branch (target : Int64)
  /-- The program counter moves, and a register receives the address to come back to. -/
  | link (target : Int64) (destination : RegisterIndex) (back : UInt64)
  /-- A store reaches memory or the console. -/
  | write (write : Machine.Write)

/-- How a step ended. -/
inductive Outcome where
  /-- The instruction was executed. -/
  | continued
  /-- The instruction was not executed. -/
  | trapped (trap : Trap)
deriving DecidableEq

namespace Machine

/-- The address after an instruction. -/
def following (machine : Machine) (instruction : Instruction) : Int64 :=
  machine.pc + instruction.size.toUInt64.toInt64

/-- The value of the register that an operand slot names. -/
def operand (machine : Machine) (instruction : Instruction) (slot : Slot) : UInt64 :=
  machine.registers.read (instruction.register slot)

/-- A base register plus the third operand, wrapping around: what a load or store reaches, and where
an indirect jump leads. -/
def effectiveAddress (machine : Machine) (instruction : Instruction) (base : Slot) : UInt64 :=
  machine.operand instruction base + (instruction.immediate .third).toUInt64

/-- The effect of an action. Registers are read before any is written, so an indirect jump may link
into the register that holds its target. -/
def effect (machine : Machine) (instruction : Instruction) : Action → Except Trap Effect
  | .loadUpper =>
    .ok (.result instruction.destination (instruction.immediate .second <<< 12).toUInt64)
  | .addUpper =>
    .ok (.result instruction.destination (machine.pc + instruction.immediate .second).toUInt64)
  | .jump =>
    .ok (.link (machine.pc + instruction.immediate .second) instruction.destination
      (machine.following instruction).toUInt64)
  | .jumpRegister =>
    let target := machine.effectiveAddress instruction .second &&& ~~~1
    .ok (.link target.toInt64 instruction.destination (machine.following instruction).toUInt64)
  | .branch condition =>
    if condition (machine.operand instruction .first) (machine.operand instruction .second) then
      .ok (.branch (machine.pc + instruction.immediate .third))
    else .ok (.branch (machine.following instruction))
  | .load width extend =>
    match machine.load (machine.effectiveAddress instruction .second) width with
    | .ok value => .ok (.result instruction.destination (extend value))
    | .error trap => .error trap
  | .store width =>
    match machine.write? (machine.effectiveAddress instruction .first) width
      (machine.operand instruction .second) with
    | .ok write => .ok (.write write)
    | .error trap => .error trap
  | .immediate combine =>
    let value := combine (machine.operand instruction .second)
      (instruction.immediate .third).toUInt64
    .ok (.result instruction.destination value)
  | .register combine =>
    let value := combine (machine.operand instruction .second) (machine.operand instruction .third)
    .ok (.result instruction.destination value)
  | .fence => .ok .none

/-- The effect of an instruction, if the machine executes it. -/
def effect? (machine : Machine) (instruction : Instruction) : Except Trap Effect :=
  match instruction.operation.action? with
  | some action => machine.effect instruction action
  | none => .error (.illegalInstruction instruction.operation instruction.address)

/-- The state with register zero cleared. -/
def clearZero (machine : Machine) : Machine :=
  { machine with registers := machine.registers.clearZero }

/-- Carries out an effect. -/
def apply (machine : Machine) : Effect → Machine
  | .none => machine
  | .result destination value => machine.setRegister destination value
  | .branch target => { machine with pc := target }
  | .link target destination back =>
    { machine with pc := target, registers := machine.registers.write destination back }
  | .write write => machine.commit write

/-- Moves the program counter past an instruction that does not set it. -/
def advance (machine : Machine) (instruction : Instruction) : Machine :=
  if instruction.isJump then machine
  else { machine with pc := machine.following instruction }

/-- Executes an instruction. Register zero reads as zero during the step and holds zero after it,
whatever a host put there. -/
def execute (machine : Machine) (instruction : Instruction) : Outcome × Machine :=
  let machine := machine.clearZero
  match machine.effect? instruction with
  | .ok effect => (.continued, ((machine.apply effect).advance instruction).clearZero)
  | .error trap => (.trapped trap, machine.clearZero)

/-- The instruction at the program counter. -/
def fetch (machine : Machine) : Instruction :=
  decode machine.memory machine.pc

/-- Fetches and executes one instruction. -/
def step (machine : Machine) : Outcome × Machine :=
  machine.execute machine.fetch

end Machine

end Hart
