/-
This file takes the image of a program out of an executable file. The checks stand in the order in
which their errors win over one another: what the file is, whether it is well-formed, whom it is
for, and then whether there is exactly one section of code with its contents in the file.
-/

import Hart.Elf.File
import Hart.Image

namespace Hart

open Elf

/-- The image that a section of code describes. -/
def Elf.SectionHeader.image (entry : SectionHeader) (header : Header) (file : ByteArray) :
    Except LoadError Image :=
  if entry.kind = SectionHeader.noContents then .error .textWithoutContents
  else if file.size < entry.fileEnd then .error .textOutsideFile
  else
    .ok ⟨UInt64.ofNat header.entry, UInt64.ofNat entry.address, entry.contents file⟩

/-- The image of the code in a well-formed file. -/
def Elf.File.image (tables : File) (file : ByteArray) : Except LoadError Image :=
  if tables.header.isSupported then
    match tables.texts with
    | [] => .error .missingText
    | [entry] => entry.image tables.header file
    | _ => .error .severalTexts
  else .error (.unsupportedTarget tables.header.fileType tables.header.machine)

/-- The image of the code in a file. -/
def Image.ofElf (file : ByteArray) : Except LoadError Image :=
  if hasMagic file then
    if isClass64 file then
      match File.read? file with
      | some tables => tables.image file
      | none => .error .malformed
    else .error .not64Bit
  else .error .badMagic

/-- The image of the code in a file, if a memory of the given capacity can hold it. -/
def Image.load (file : ByteArray) (capacity : Nat) : Except LoadError Image :=
  match Image.ofElf file with
  | .ok image =>
    match image.check capacity with
    | .ok _ => .ok image
    | .error error => .error error
  | .error error => .error error

end Hart
