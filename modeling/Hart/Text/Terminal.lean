/-
This file writes texts for terminals. A terminal takes some characters as commands, so a text that
comes from outside, such as the path of a file, could move the cursor or hide what stands beside it.
Those characters are spelled out by their numbers. All others stand for themselves, backslashes and
line breaks included.
-/

import Hart.Text.Digits

namespace Hart.Text

/-- The ASCII characters that begin or are commands: bell, backspace, form feed, escape, delete. -/
def terminalCommands : List Nat :=
  [0x07, 0x08, 0x0c, 0x1b, 0x7f]

/-- Whether a terminal takes a character as a command. Next to the ASCII ones these are the 32
control characters after ASCII, each of which stands for an escape sequence of two characters. -/
def isTerminalCommand (symbol : Char) : Bool :=
  terminalCommands.contains symbol.toNat || (0x80 ≤ symbol.toNat && symbol.toNat ≤ 0x9f)

/-- A character as a terminal is to see it. -/
def inertSymbol (symbol : Char) : List Char :=
  if isTerminalCommand symbol then
    if symbol.toNat < 0x80 then ("\\x" ++ hexPadded '0' 2 symbol.toNat).toList
    else ("\\u\x7b" ++ hex symbol.toNat ++ "\x7d").toList
  else [symbol]

/-- A text as a terminal is to see it. -/
def inert (text : String) : String :=
  String.ofList (text.toList.flatMap inertSymbol)

/-- The lines of a text. A carriage return before a line feed belongs to the line break. -/
def lines (text : String) : List String :=
  (text.replace "\r\n" "\n").splitOn "\n"

end Hart.Text
