/-
This file defines what is loaded: a run of code, the address at which it belongs and the address at
which execution starts. The start need not lie inside the code.
-/

import Hart.LoadError
import Hart.Machine.State

namespace Hart

/-- A program ready to be put into memory. -/
structure Image where
  /-- Where execution starts. -/
  entry : UInt64
  /-- Where the code belongs. -/
  address : UInt64
  code : ByteArray

namespace Image

/-- Whether the code lies wholly within the first `capacity` bytes. Addresses do not wrap around. -/
def fits (image : Image) (capacity : Nat) : Bool :=
  image.address.toNat + image.code.size ≤ capacity

/-- Complains about an image that does not fit. -/
def check (image : Image) (capacity : Nat) : Except LoadError Unit :=
  if image.fits capacity then .ok ()
  else .error (.overflow image.address image.code.size capacity)

/-- The code as a list of bytes. -/
def codeBytes (image : Image) : List UInt8 :=
  image.code.data.toList

end Image

/-- Puts an image into memory and points the program counter at its entry. Registers, the sink and
all other bytes of memory stay as they are. -/
def Machine.install (machine : Machine) (image : Image) : Except LoadError Unit × Machine :=
  match image.check machine.capacity with
  | .ok _ =>
    (.ok (), { machine with
      pc := image.entry.toInt64
      memory := Bytes.overwrite machine.memory image.address.toNat image.codeBytes })
  | .error error => (.error error, machine)

end Hart
