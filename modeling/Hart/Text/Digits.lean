/-
This file fixes how numbers are written. Addresses, register values and raw encodings appear in
lower-case hexadecimal, sizes and counts in decimal. Every text the library produces goes through
these few functions, so that what a text says about a number can be argued once.
-/

namespace Hart.Text

/-- The hexadecimal digits of a number, most significant first and without leading zeros. Zero
has one digit. -/
def hexDigits (value : Nat) : List Char :=
  Nat.toDigits 16 value

/-- Hexadecimal without a base mark. -/
def hex (value : Nat) : String :=
  String.ofList (hexDigits value)

/-- Hexadecimal with the mark `0x` in front, the form of every address in a message. -/
def hexLiteral (value : Nat) : String :=
  "0x" ++ hex value

/-- Hexadecimal filled up on the left to at least `width` characters. A longer number is written
in full, never cut. -/
def hexPadded (fill : Char) (width value : Nat) : String :=
  String.ofList (List.leftpad width fill (hexDigits value))

/-- Decimal with a minus sign for negative numbers. -/
def decimal : Int → String
  | .ofNat value => value.repr
  | .negSucc value => "-" ++ (value + 1).repr

/-- The value of a decimal digit. -/
def decimalDigit? (symbol : Char) : Option Nat :=
  if '0' ≤ symbol ∧ symbol ≤ '9' then some (symbol.toNat - '0'.toNat) else none

/-- Reads decimal digits after a number already read. Only ASCII digits count. -/
def readDigits (read : Nat) : List Char → Option Nat
  | [] => some read
  | symbol :: rest =>
    match decimalDigit? symbol with
    | some digit => readDigits (10 * read + digit) rest
    | none => none

/-- Reads an unsigned decimal number: an optional plus sign, then at least one digit. Leading
zeros carry no meaning. -/
def readDecimal? (text : String) : Option Nat :=
  let digits :=
    match text.toList with
    | '+' :: rest => rest
    | symbols => symbols
  match digits with
  | [] => none
  | _ => readDigits 0 digits

end Hart.Text
