/-
This file states what the instructions of RV64I do, as the instruction set manual states it: on the
bits of the instruction word, with no decoded form in between. The fields are cut out of the word at
the positions that the manual gives, every immediate is extended by its sign to 64 bits, and all
arithmetic is on 64-bit words that wrap around.

The machine deviates from a bare hart in three ways, and they are stated here too. An access that
leaves memory faults and names the access. A store to the console address goes to the console and
not to memory. Jumps may lead anywhere: there is no complaint about a target that is not aligned.
Environment calls are not carried out, so their words are illegal like every word outside the table.
-/

namespace Hart.Reference

/-! ### The state -/

/-- What an instruction can see and change. -/
structure State where
  pc : BitVec 64
  /-- The registers. Register zero reads as zero. -/
  register : BitVec 5 → BitVec 64
  /-- How many bytes of memory there are. -/
  size : Nat
  /-- The bytes of memory. -/
  byte : Nat → BitVec 8
  /-- The bytes that the console received with the addresses of the stores, oldest first, if
  anyone listens to it. -/
  console : Option (List (BitVec 8 × BitVec 64))

/-- How an instruction ends. -/
inductive Ending where
  /-- The instruction was executed. -/
  | retired
  /-- The word is not the encoding of an executable instruction. -/
  | illegal
  /-- The instruction reached outside memory. -/
  | fault (address : BitVec 64) (width : Nat)
deriving DecidableEq

namespace State

/-- The two, four and eight bytes at an index, the lowest address least significant. -/
def half (state : State) (index : Nat) : BitVec 16 :=
  state.byte (index + 1) ++ state.byte index

@[inherit_doc half]
def word (state : State) (index : Nat) : BitVec 32 :=
  state.half (index + 2) ++ state.half index

@[inherit_doc half]
def double (state : State) (index : Nat) : BitVec 64 :=
  state.word (index + 4) ++ state.word index

/-- The word that the program counter points at. -/
def fetched (state : State) : BitVec 32 :=
  state.word state.pc.toNat

/-- The state with a register written. Register zero cannot be written. -/
def write (state : State) (rd : BitVec 5) (value : BitVec 64) : State :=
  { state with
    register := fun index => if index = rd ∧ rd ≠ 0 then value else state.register index }

/-- The state with the program counter past the instruction. -/
def next (state : State) : State :=
  { state with pc := state.pc + 4 }

/-- The state with the program counter moved to a target. -/
def goto (state : State) (target : BitVec 64) : State :=
  { state with pc := target }

/-- The state with the lowest `width` bytes of a value put into memory. -/
def put (state : State) (start width : Nat) (value : BitVec 64) : State :=
  { state with
    byte := fun index =>
      if start ≤ index ∧ index < start + width then value.extractLsb' (8 * (index - start)) 8
      else state.byte index }

/-- The state after the console received the lowest byte of a value. -/
def deliver (state : State) (address value : BitVec 64) : State :=
  { state with console := state.console.map (· ++ [(value.extractLsb 7 0, address)]) }

end State

/-! ### The fields of a word -/

def opcode (word : BitVec 32) : BitVec 7 := word.extractLsb 6 0
def rd (word : BitVec 32) : BitVec 5 := word.extractLsb 11 7
def funct3 (word : BitVec 32) : BitVec 3 := word.extractLsb 14 12
def rs1 (word : BitVec 32) : BitVec 5 := word.extractLsb 19 15
def rs2 (word : BitVec 32) : BitVec 5 := word.extractLsb 24 20
def funct6 (word : BitVec 32) : BitVec 6 := word.extractLsb 31 26
def funct7 (word : BitVec 32) : BitVec 7 := word.extractLsb 31 25

/-- The shift amounts of shifts by an immediate, for doublewords and for words. -/
def shamt (word : BitVec 32) : BitVec 6 := word.extractLsb 25 20
def shamtWord (word : BitVec 32) : BitVec 5 := word.extractLsb 24 20

def immediateI (word : BitVec 32) : BitVec 64 :=
  (word.extractLsb 31 20).signExtend 64

def immediateS (word : BitVec 32) : BitVec 64 :=
  (word.extractLsb 31 25 ++ word.extractLsb 11 7).signExtend 64

def immediateB (word : BitVec 32) : BitVec 64 :=
  (word.extractLsb 31 31 ++ word.extractLsb 7 7 ++ word.extractLsb 30 25 ++ word.extractLsb 11 8
    ++ 0#1).signExtend 64

def immediateU (word : BitVec 32) : BitVec 64 :=
  (word.extractLsb 31 12 ++ 0#12).signExtend 64

def immediateJ (word : BitVec 32) : BitVec 64 :=
  (word.extractLsb 31 31 ++ word.extractLsb 19 12 ++ word.extractLsb 20 20
    ++ word.extractLsb 30 21 ++ 0#1).signExtend 64

/-! ### The tables -/

/-- A truth value as a register value. -/
def truth (holds : Bool) : BitVec 64 :=
  if holds then 1 else 0

/-- BRANCH: whether the branch is taken. -/
def taken? (funct3 : BitVec 3) (first second : BitVec 64) : Option Bool :=
  match funct3 with
  | 0b000 => some (first == second)
  | 0b001 => some (first != second)
  | 0b100 => some (first.slt second)
  | 0b101 => some (!first.slt second)
  | 0b110 => some (first.ult second)
  | 0b111 => some (!first.ult second)
  | _ => none

/-- LOAD: the width of the access and the value that it finds. -/
def loaded? (state : State) (funct3 : BitVec 3) (index : Nat) : Option (Nat × BitVec 64) :=
  match funct3 with
  | 0b000 => some (1, (state.byte index).signExtend 64)
  | 0b001 => some (2, (state.half index).signExtend 64)
  | 0b010 => some (4, (state.word index).signExtend 64)
  | 0b011 => some (8, state.double index)
  | 0b100 => some (1, (state.byte index).zeroExtend 64)
  | 0b101 => some (2, (state.half index).zeroExtend 64)
  | 0b110 => some (4, (state.word index).zeroExtend 64)
  | _ => none

/-- STORE: the width of the access. -/
def storeWidth? (funct3 : BitVec 3) : Option Nat :=
  match funct3 with
  | 0b000 => some 1
  | 0b001 => some 2
  | 0b010 => some 4
  | 0b011 => some 8
  | _ => none

/-- OP-IMM: the result. -/
def opImm? (funct6 : BitVec 6) (funct3 : BitVec 3) (shamt : BitVec 6)
    (first immediate : BitVec 64) : Option (BitVec 64) :=
  match funct3 with
  | 0b000 => some (first + immediate)
  | 0b001 => if funct6 = 0b000000 then some (first <<< shamt) else none
  | 0b010 => some (truth (first.slt immediate))
  | 0b011 => some (truth (first.ult immediate))
  | 0b100 => some (first ^^^ immediate)
  | 0b101 =>
    if funct6 = 0b000000 then some (first >>> shamt)
    else if funct6 = 0b010000 then some (first.sshiftRight' shamt)
    else none
  | 0b110 => some (first ||| immediate)
  | 0b111 => some (first &&& immediate)

/-- OP-IMM-32: the result. The operation is on the low halves, and its result is extended by its
sign. -/
def opImm32? (funct7 : BitVec 7) (funct3 : BitVec 3) (shamt : BitVec 5)
    (first immediate : BitVec 64) : Option (BitVec 64) :=
  let low := first.extractLsb 31 0
  match funct3 with
  | 0b000 => some ((low + immediate.extractLsb 31 0).signExtend 64)
  | 0b001 => if funct7 = 0b0000000 then some ((low <<< shamt).signExtend 64) else none
  | 0b101 =>
    if funct7 = 0b0000000 then some ((low >>> shamt).signExtend 64)
    else if funct7 = 0b0100000 then some ((low.sshiftRight' shamt).signExtend 64)
    else none
  | _ => none

/-- OP: the result. Shifts look at the low six bits of their amount. -/
def op? (funct7 : BitVec 7) (funct3 : BitVec 3) (first second : BitVec 64) : Option (BitVec 64) :=
  match funct7, funct3 with
  | 0b0000000, 0b000 => some (first + second)
  | 0b0100000, 0b000 => some (first - second)
  | 0b0000000, 0b001 => some (first <<< second.extractLsb 5 0)
  | 0b0000000, 0b010 => some (truth (first.slt second))
  | 0b0000000, 0b011 => some (truth (first.ult second))
  | 0b0000000, 0b100 => some (first ^^^ second)
  | 0b0000000, 0b101 => some (first >>> second.extractLsb 5 0)
  | 0b0100000, 0b101 => some (first.sshiftRight' (second.extractLsb 5 0))
  | 0b0000000, 0b110 => some (first ||| second)
  | 0b0000000, 0b111 => some (first &&& second)
  | _, _ => none

/-- OP-32: the result. Shifts look at the low five bits of their amount. -/
def op32? (funct7 : BitVec 7) (funct3 : BitVec 3) (first second : BitVec 64) :
    Option (BitVec 64) :=
  let low := first.extractLsb 31 0
  let other := second.extractLsb 31 0
  let amount := second.extractLsb 4 0
  match funct7, funct3 with
  | 0b0000000, 0b000 => some ((low + other).signExtend 64)
  | 0b0100000, 0b000 => some ((low - other).signExtend 64)
  | 0b0000000, 0b001 => some ((low <<< amount).signExtend 64)
  | 0b0000000, 0b101 => some ((low >>> amount).signExtend 64)
  | 0b0100000, 0b101 => some ((low.sshiftRight' amount).signExtend 64)
  | _, _ => none

/-! ### Execution -/

/-- An instruction that computes a result. -/
def compute (state : State) (rd : BitVec 5) : Option (BitVec 64) → Ending × State
  | some value => (.retired, (state.write rd value).next)
  | none => (.illegal, state)

/-- A jump, which leaves the address after it in a register. -/
def jump (state : State) (rd : BitVec 5) (target : BitVec 64) : Ending × State :=
  (.retired, (state.write rd (state.pc + 4)).goto target)

/-- A branch. -/
def branch (state : State) (offset : BitVec 64) : Option Bool → Ending × State
  | some true => (.retired, state.goto (state.pc + offset))
  | some false => (.retired, state.next)
  | none => (.illegal, state)

/-- A load from an address. -/
def load (state : State) (rd : BitVec 5) (funct3 : BitVec 3) (address : BitVec 64) :
    Ending × State :=
  match loaded? state funct3 address.toNat with
  | some (width, value) =>
    if address.toNat + width ≤ state.size then (.retired, (state.write rd value).next)
    else (.fault address width, state)
  | none => (.illegal, state)

/-- A store to an address. -/
def store (state : State) (funct3 : BitVec 3) (address value : BitVec 64) : Ending × State :=
  match storeWidth? funct3 with
  | some width =>
    if address = 0x10000 then (.retired, (state.deliver address value).next)
    else if address.toNat + width ≤ state.size then
      (.retired, (state.put address.toNat width value).next)
    else (.fault address width, state)
  | none => (.illegal, state)

/-- What an instruction word does. -/
def step (state : State) (word : BitVec 32) : Ending × State :=
  let first := state.register (rs1 word)
  let second := state.register (rs2 word)
  match opcode word with
  | 0b0110111 => compute state (rd word) (some (immediateU word))
  | 0b0010111 => compute state (rd word) (some (state.pc + immediateU word))
  | 0b1101111 => jump state (rd word) (state.pc + immediateJ word)
  | 0b1100111 =>
    if funct3 word = 0b000 then jump state (rd word) ((first + immediateI word) &&& ~~~1)
    else (.illegal, state)
  | 0b1100011 => branch state (immediateB word) (taken? (funct3 word) first second)
  | 0b0000011 => load state (rd word) (funct3 word) (first + immediateI word)
  | 0b0100011 => store state (funct3 word) (first + immediateS word) second
  | 0b0010011 =>
    compute state (rd word)
      (opImm? (funct6 word) (funct3 word) (shamt word) first (immediateI word))
  | 0b0110011 => compute state (rd word) (op? (funct7 word) (funct3 word) first second)
  | 0b0011011 =>
    compute state (rd word)
      (opImm32? (funct7 word) (funct3 word) (shamtWord word) first (immediateI word))
  | 0b0111011 => compute state (rd word) (op32? (funct7 word) (funct3 word) first second)
  | 0b0001111 => if funct3 word = 0b000 then (.retired, state.next) else (.illegal, state)
  | _ => (.illegal, state)

end Hart.Reference
