/-
This file loads, stores and installs with guards. Whether memory holds a window is decided in one
place, by a sum that may overflow and, for accesses, a list of widths. It is relied upon in another,
where the bytes are copied: to the front of a buffer of eight, from the front of the eight bytes of
a value, or from the code of an image, whose end is summed up once more without a check.

What is decided is what the copies need, so none of them fails.
-/

import Hart.Proofs.Guards
import Hart.Proofs.Accesses
import Hart.Proofs.Installing

namespace Hart

namespace Bytes

/-! ### Shorter runs among longer ones -/

/-- Bytes in front of zeros. -/
theorem slice_overwrite_zeros (bytes : List UInt8) {size : Nat} (fits : bytes.length ≤ size) :
    slice (overwrite (zeros size) 0 bytes) 0 size =
      bytes ++ List.replicate (size - bytes.length) 0 := by
  have inside : 0 + bytes.length ≤ (zeros size).size := by
    rw [size_zeros]
    omega
  refine List.ext_getElem? fun index => ?_
  rw [getElem?_slice, byteAt_overwrite _ _ _ _ inside, byteAt_zeros,
    List.getElem?_append, List.getElem?_replicate, Nat.zero_add, Nat.zero_add, Nat.sub_zero]
  by_cases front : index < bytes.length
  · have bound : index < size := by omega
    simp [front, bound]
  · by_cases bound : index < size
    · have behind : index - bytes.length < size - bytes.length := by omega
      simp [front, bound, behind]
    · have beyond : ¬index - bytes.length < size - bytes.length := by omega
      simp [front, bound, beyond]

theorem littleEndian_zeros (count : Nat) :
    littleEndian (List.replicate count 0) = 0 := by
  induction count with
  | zero => rfl
  | succ count inductionHypothesis =>
    rw [List.replicate_succ, littleEndian, inductionHypothesis]
    rfl

/-- Zeros behind the bytes of a number do not count. -/
theorem littleEndian_append_zeros (bytes : List UInt8) (count : Nat) :
    littleEndian (bytes ++ List.replicate count 0) = littleEndian bytes := by
  induction bytes with
  | nil => exact littleEndian_zeros count
  | cons byte rest inductionHypothesis =>
    rw [List.cons_append, littleEndian, inductionHypothesis, littleEndian]

/-- The first bytes of a number are those of a narrower writing. -/
theorem take_ofNumber {width size : Nat} (narrower : width ≤ size) (value : Nat) :
    (ofNumber size value).take width = ofNumber width value := by
  refine List.ext_getElem? fun index => ?_
  rw [List.getElem?_take, getElem?_ofNumber, getElem?_ofNumber]
  by_cases front : index < width
  · rw [if_pos front, if_pos (Nat.lt_of_lt_of_le front narrower), if_pos front]
  · rw [if_neg front, if_neg front]

end Bytes

namespace Guarded

/-! ### Accesses -/

/-- The window of an access, if memory holds it and the width exists. That the sum overflows is one
of the answers here and no mistake. -/
def accessed (machine : Machine) (address : UInt64) (width : Nat) : Except Trap (Nat × Nat) :=
  match sum? address.toNat width with
  | some stop =>
    if Machine.accessWidths.contains width ∧ stop ≤ machine.capacity then
      .ok (address.toNat, stop)
    else .error (.memoryFault address width)
  | none => .error (.memoryFault address width)

/-- A load copies its bytes to the front of eight zero bytes. -/
def load? (machine : Machine) (address : UInt64) (width : Nat) : Option (Except Trap UInt64) :=
  match accessed machine address width with
  | .ok (start, stop) => do
    let bytes ← window? machine.memory start stop
    let buffer ← fill? (Bytes.zeros 8) 0 width bytes
    return .ok (UInt64.ofNat (Bytes.littleEndian (Bytes.slice buffer 0 8)))
  | .error trap => return .error trap

/-- A store copies the first of the eight bytes of its value. -/
def store? (machine : Machine) (address : UInt64) (width : Nat) (value : UInt64) :
    Option (Except Trap Unit × Machine) :=
  if address = Machine.console ∧ Machine.accessWidths.contains width then
    return (.ok (), machine.commit (.deliver ⟨value.toUInt8, address⟩))
  else
    match accessed machine address width with
    | .ok (start, stop) => do
      let bytes ← leading? (Bytes.ofNumber 8 value.toNat) width
      let memory ← fill? machine.memory start stop bytes
      return (.ok (), { machine with memory })
    | .error trap => return (.error trap, machine)

section

variable {machine : Machine} {address : UInt64} {width : Nat}

theorem accessed_of_inside (held : machine.capacity < UInt64.size)
    (real : width ∈ Machine.accessWidths) (inside : address.toNat + width ≤ machine.capacity) :
    accessed machine address width = .ok (address.toNat, address.toNat + width) := by
  unfold accessed
  rw [sum?_of_lt (Nat.lt_of_le_of_lt inside held)]
  exact if_pos ⟨List.contains_iff_mem.mpr real, inside⟩

/-- A sum that overflows lies outside memory as well. -/
theorem accessed_of_outside
    (outside : ¬(width ∈ Machine.accessWidths ∧ address.toNat + width ≤ machine.capacity)) :
    accessed machine address width = .error (.memoryFault address width) := by
  unfold accessed sum?
  by_cases bounded : address.toNat + width < UInt64.size
  · rw [if_pos bounded]
    exact if_neg fun permitted => outside ⟨List.contains_iff_mem.mp permitted.1, permitted.2⟩
  · rw [if_neg bounded]

theorem load?_eq (held : machine.capacity < UInt64.size) (address : UInt64) (width : Nat) :
    load? machine address width = some (machine.load address width) := by
  unfold load?
  rcases machine.load_cases address width with ⟨real, inside, -⟩ | ⟨outside, fails⟩
  · have narrow : width ≤ 8 := (Machine.width_bounds real).2
    have length := Bytes.length_slice machine.memory address.toNat width
    have room : 0 + width ≤ (Bytes.zeros 8).size := by
      rw [Bytes.size_zeros, Nat.zero_add]
      exact narrow
    have copied := fill?_of_le room length
    rw [Nat.zero_add] at copied
    rw [accessed_of_inside held real inside, Machine.load_of_real real inside]
    dsimp only
    rw [bind_of_eq_some (window?_of_le inside), bind_of_eq_some copied,
      Bytes.slice_overwrite_zeros _ (by rw [length]; exact narrow),
      Bytes.littleEndian_append_zeros]
    rfl
  · rw [accessed_of_outside outside, fails]
    rfl

theorem store?_eq (held : machine.capacity < UInt64.size) (address : UInt64) (width : Nat)
    (value : UInt64) :
    store? machine address width value = some (machine.store address width value) := by
  unfold store?
  rcases machine.write?_cases address width value with
    ⟨real, atConsole, works⟩ | ⟨real, elsewhere, inside, works⟩ | ⟨refused, fails⟩
  · rw [if_pos ⟨atConsole, List.contains_iff_mem.mpr real⟩, Machine.store_of_write works]
    rfl
  · have narrow : width ≤ (Bytes.ofNumber 8 value.toNat).length := by
      rw [Bytes.length_ofNumber]
      exact (Machine.width_bounds real).2
    have length := Bytes.length_ofNumber width value.toNat
    rw [if_neg fun delivered => elsewhere delivered.1, accessed_of_inside held real inside,
      Machine.store_of_write works]
    dsimp only
    rw [bind_of_eq_some (leading?_of_le narrow),
      Bytes.take_ofNumber (Machine.width_bounds real).2,
      bind_of_eq_some (fill?_of_le inside length)]
    rfl
  · have missed : ¬(address = Machine.console ∧ Machine.accessWidths.contains width) :=
      fun delivered => refused ⟨List.contains_iff_mem.mp delivered.2, .inl delivered.1⟩
    have outside : ¬(width ∈ Machine.accessWidths ∧ address.toNat + width ≤ machine.capacity) :=
      fun permitted => refused ⟨permitted.1, .inr permitted.2⟩
    rw [if_neg missed, accessed_of_outside outside, Machine.store_of_error fails]
    rfl

end

/-! ### Images -/

/-- Complains about an image that does not fit. As with an access, the sum may overflow. -/
def check (image : Image) (capacity : Nat) : Except LoadError Unit :=
  match sum? image.address.toNat image.code.size with
  | some stop =>
    if stop ≤ capacity then .ok ()
    else .error (.overflow image.address image.code.size capacity)
  | none => .error (.overflow image.address image.code.size capacity)

/-- Puts an image into memory. Here the sum may not overflow any more. -/
def install? (machine : Machine) (image : Image) : Option (Except LoadError Unit × Machine) :=
  match check image machine.capacity with
  | .ok _ => do
    let stop ← sum? image.address.toNat image.code.size
    let memory ← fill? machine.memory image.address.toNat stop image.codeBytes
    return (.ok (), { machine with pc := image.entry.toInt64, memory })
  | .error error => return (.error error, machine)

theorem check_eq (image : Image) {capacity : Nat} (held : capacity < UInt64.size) :
    check image capacity = image.check capacity := by
  unfold check sum?
  by_cases bounded : image.address.toNat + image.code.size < UInt64.size
  · rw [if_pos bounded]
    by_cases fits : image.address.toNat + image.code.size ≤ capacity
    · rw [Image.check_of_le fits]
      exact if_pos fits
    · rw [Image.check_of_lt fits]
      exact if_neg fits
  · have beyond : ¬image.address.toNat + image.code.size ≤ capacity := by omega
    rw [if_neg bounded, Image.check_of_lt beyond]

theorem install?_eq {machine : Machine} (held : machine.capacity < UInt64.size) (image : Image) :
    install? machine image = some (machine.install image) := by
  unfold install?
  rw [check_eq image held]
  by_cases fits : image.address.toNat + image.code.size ≤ machine.capacity
  · have length : image.codeBytes.length = image.code.size := rfl
    rw [Image.check_of_le fits, Machine.install_of_fits fits]
    dsimp only
    rw [bind_of_eq_some (sum?_of_lt (Nat.lt_of_le_of_lt fits held)),
      bind_of_eq_some (fill?_of_le fits length)]
    rfl
  · rw [Image.check_of_lt fits, Machine.install_of_not_fits fits]
    rfl

end Guarded

end Hart
