/-
This file lists the reasons for which a file is not loaded, in the order in which they are looked
for. Several of them are kinds of one complaint, that the file is no usable ELF64 image.
-/

import Hart.Text.Digits

namespace Hart

/-- Why a file was not loaded. -/
inductive LoadError where
  /-- The file does not start with the four bytes that mark an ELF file. -/
  | badMagic
  /-- The file is not of the 64-bit class. -/
  | not64Bit
  /-- A header or table does not fit the file. -/
  | malformed
  /-- The file is no executable, or one for another processor. -/
  | unsupportedTarget (fileType machine : Nat)
  /-- There is no section of code. -/
  | missingText
  /-- There is more than one section of code. -/
  | severalTexts
  /-- The section of code takes up no room in the file. -/
  | textWithoutContents
  /-- The section of code reaches beyond the end of the file. -/
  | textOutsideFile
  /-- The code does not fit in the memory of the machine. -/
  | overflow (address : UInt64) (size capacity : Nat)
deriving DecidableEq

namespace LoadError

/-- The complaint about an image that cannot be used. -/
def invalidImage (reason : String) : String :=
  "invalid ELF64 image: " ++ reason

/-- The text shown for an error. The reason for which a file is malformed is not told apart. -/
def message : LoadError → String
  | badMagic => invalidImage "bad magic"
  | not64Bit => invalidImage "not a 64-bit ELF"
  | malformed => invalidImage "<parser>"
  | unsupportedTarget fileType machine =>
    "unsupported target: e_type " ++ fileType.repr ++ ", e_machine " ++ machine.repr
  | missingText => "no .text section"
  | severalTexts => invalidImage "more than one .text section"
  | textWithoutContents => invalidImage ".text has no file contents"
  | textOutsideFile => invalidImage ".text contents lie outside the file"
  | overflow address size capacity =>
    ".text at " ++ Text.hexLiteral address.toNat ++ " (" ++ size.repr
      ++ " bytes) exceeds memory capacity of " ++ capacity.repr ++ " bytes"

end LoadError

end Hart
