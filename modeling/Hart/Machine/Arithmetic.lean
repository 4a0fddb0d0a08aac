/-
This file defines the arithmetic of the instruction set on 64-bit words. Addition and subtraction
wrap around. A shift looks at the low bits of its amount only: six for doublewords, five for words.
Shift operators on fixed-width words already reduce the amount modulo the width, which is the same.
Word operations work on the low half and extend the result by its sign.
-/

namespace Hart.Arithmetic

/-- A truth value as a register value. -/
@[inline] def ofBool (holds : Bool) : UInt64 :=
  if holds then 1 else 0

/-- The low byte extended by its sign. -/
def signExtend8 (value : UInt64) : UInt64 :=
  value.toUInt8.toInt8.toInt64.toUInt64

/-- The low two bytes extended by their sign. -/
def signExtend16 (value : UInt64) : UInt64 :=
  value.toUInt16.toInt16.toInt64.toUInt64

/-- The low four bytes extended by their sign. -/
def signExtend32 (value : UInt64) : UInt64 :=
  value.toUInt32.toInt32.toInt64.toUInt64

/-- Signed comparison. -/
def lessSigned (first second : UInt64) : Bool :=
  first.toInt64 < second.toInt64

/-- Unsigned comparison. -/
def lessUnsigned (first second : UInt64) : Bool :=
  first < second

/-- Shifts left and fills up with zeros. -/
def shiftLeft (value amount : UInt64) : UInt64 :=
  value <<< amount

/-- Shifts right and fills up with zeros. -/
def shiftRight (value amount : UInt64) : UInt64 :=
  value >>> amount

/-- Shifts right and fills up with the sign. -/
def shiftRightArithmetic (value amount : UInt64) : UInt64 :=
  (value.toInt64 >>> amount.toInt64).toUInt64

/-- The sum of the low halves. -/
def addWord (first second : UInt64) : UInt64 :=
  signExtend32 (first + second)

/-- The difference of the low halves. -/
def subWord (first second : UInt64) : UInt64 :=
  signExtend32 (first - second)

/-- Shifts the low half left and fills up with zeros. -/
def shiftLeftWord (value amount : UInt64) : UInt64 :=
  (value.toUInt32 <<< amount.toUInt32).toInt32.toInt64.toUInt64

/-- Shifts the low half right and fills up with zeros. -/
def shiftRightWord (value amount : UInt64) : UInt64 :=
  (value.toUInt32 >>> amount.toUInt32).toInt32.toInt64.toUInt64

/-- Shifts the low half right and fills up with its sign. -/
def shiftRightArithmeticWord (value amount : UInt64) : UInt64 :=
  (value.toUInt32.toInt32 >>> amount.toUInt32.toInt32).toInt64.toUInt64

end Hart.Arithmetic
