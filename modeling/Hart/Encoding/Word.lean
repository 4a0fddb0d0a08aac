/-
This file names the fields of an encoded instruction. A word of 32 bits carries all formats at once:
each format gives its own reading to the same bits, and a field is simply a run of bits, or several
runs put together. Offsets of branches and jumps are always even, so their lowest bit is not stored.

  bits   31..25 24..20 19..15 14..12 11..7  6..0
  R      funct7 rs2    rs1    funct3 rd     opcode
  I      immediate     rs1    funct3 rd     opcode
  S, B   upper  rs2    rs1    funct3 lower  opcode
  U, J   immediate                   rd     opcode
-/

namespace Hart

/-- An encoded instruction of the standard length. -/
abbrev Word := BitVec 32

namespace Word

/-- The major opcode. -/
def major (word : Word) : BitVec 5 := word.extractLsb' 2 5

/-- The destination register. -/
def rd (word : Word) : BitVec 5 := word.extractLsb' 7 5

/-- The first source register. -/
def rs1 (word : Word) : BitVec 5 := word.extractLsb' 15 5

/-- The second source register. -/
def rs2 (word : Word) : BitVec 5 := word.extractLsb' 20 5

/-- Selects among the operations of an opcode. -/
def funct3 (word : Word) : BitVec 3 := word.extractLsb' 12 3

/-- Selects further where the second source is a register or a five-bit shift amount. -/
def funct7 (word : Word) : BitVec 7 := word.extractLsb' 25 7

/-- Selects further beside a six-bit shift amount. -/
def funct6 (word : Word) : BitVec 6 := word.extractLsb' 26 6

/-- The shift amount of a word shift. -/
def shamt5 (word : Word) : BitVec 5 := word.extractLsb' 20 5

/-- The shift amount of a doubleword shift. -/
def shamt6 (word : Word) : BitVec 6 := word.extractLsb' 20 6

/-- The immediate of format I. -/
def immediateI (word : Word) : BitVec 12 := word.extractLsb' 20 12

/-- The immediate of format S, which leaves the bits of `rd` and `rs2` where format R has them. -/
def immediateS (word : Word) : BitVec 12 :=
  word.extractLsb' 25 7 ++ word.extractLsb' 7 5

/-- The branch offset of format B. -/
def immediateB (word : Word) : BitVec 13 :=
  word.extractLsb' 31 1 ++ word.extractLsb' 7 1 ++ word.extractLsb' 25 6
    ++ word.extractLsb' 8 4 ++ 0#1

/-- The twenty bits of format U before they are moved into place. -/
def upper (word : Word) : BitVec 20 := word.extractLsb' 12 20

/-- The immediate of format U in place, its low twelve bits zero. -/
def immediateU (word : Word) : BitVec 32 := word.upper ++ 0#12

/-- The jump offset of format J. -/
def immediateJ (word : Word) : BitVec 21 :=
  word.extractLsb' 31 1 ++ word.extractLsb' 12 8 ++ word.extractLsb' 20 1
    ++ word.extractLsb' 21 10 ++ 0#1

end Word

end Hart
