/-
This file says what it means to install an image in a machine that is in use. The address of an
image and the size of its code are measured against memory as natural numbers, so an address near
the end of the address space never wraps around into memory, and code without bytes may stand right
behind the last byte. What fits replaces exactly the bytes it covers. What does not fit is reported
and replaces none.
-/

import Hart.Image

namespace Hart

open Bytes (byteAt)

namespace Image

variable {image : Image} {capacity : Nat}

theorem check_of_le (fits : image.address.toNat + image.code.size ≤ capacity) :
    image.check capacity = .ok () :=
  if_pos (decide_eq_true fits)

theorem check_of_lt (beyond : ¬image.address.toNat + image.code.size ≤ capacity) :
    image.check capacity = .error (.overflow image.address image.code.size capacity) :=
  if_neg fun fits => beyond (of_decide_eq_true fits)

theorem le_of_check (checked : image.check capacity = .ok ()) :
    image.address.toNat + image.code.size ≤ capacity := by
  by_cases fits : image.address.toNat + image.code.size ≤ capacity
  · exact fits
  · rw [check_of_lt fits] at checked
    cases checked

/-- Whether a byte of the code belongs at an index of memory. Code without bytes covers nothing. -/
def Covers (image : Image) (index : Nat) : Prop :=
  image.address.toNat ≤ index ∧ index < image.address.toNat + image.code.size

instance (image : Image) (index : Nat) : Decidable (image.Covers index) :=
  inferInstanceAs (Decidable (_ ∧ _))

theorem byteAt_codeBytes (image : Image) (index : Nat) (inside : index < image.code.size) :
    image.codeBytes[index]?.getD 0 = byteAt image.code index := by
  have bound : index < image.code.data.toList.length := inside
  unfold codeBytes byteAt
  rw [dif_pos inside, List.getElem?_eq_getElem bound]
  rfl

end Image

namespace Machine

variable {machine : Machine} {image other : Image}

/-! ### One image -/

theorem install_of_fits (fits : image.address.toNat + image.code.size ≤ machine.capacity) :
    machine.install image =
      (.ok (), { machine with
        pc := image.entry.toInt64
        memory := Bytes.overwrite machine.memory image.address.toNat image.codeBytes }) := by
  unfold install
  rw [Image.check_of_le fits]

theorem install_of_not_fits (beyond : ¬image.address.toNat + image.code.size ≤ machine.capacity) :
    machine.install image =
      (.error (.overflow image.address image.code.size machine.capacity), machine) := by
  unfold install
  rw [Image.check_of_lt beyond]

theorem capacity_install (machine : Machine) (image : Image) :
    (machine.install image).2.capacity = machine.capacity := by
  unfold install
  cases image.check machine.capacity with
  | ok _ => exact Bytes.size_overwrite _ _ _
  | error error => rfl

theorem install_eq_ok_iff :
    (machine.install image).1 = .ok () ↔
      image.address.toNat + image.code.size ≤ machine.capacity := by
  by_cases fits : image.address.toNat + image.code.size ≤ machine.capacity
  · simp [install_of_fits fits, fits]
  · simp [install_of_not_fits fits, fits]

/-- An image that is installed covers its bytes of memory and no others. -/
theorem byteAt_install (fits : image.address.toNat + image.code.size ≤ machine.capacity)
    (index : Nat) :
    byteAt (machine.install image).2.memory index =
      if image.Covers index then byteAt image.code (index - image.address.toNat)
      else byteAt machine.memory index := by
  have length : image.codeBytes.length = image.code.size := rfl
  have inside : image.address.toNat + image.codeBytes.length ≤ machine.memory.size := fits
  rw [install_of_fits fits]
  refine (Bytes.byteAt_overwrite _ _ _ _ inside).trans ?_
  rw [length]
  by_cases covered : image.Covers index
  · have within : index - image.address.toNat < image.code.size := by
      obtain ⟨behind, before⟩ := covered
      omega
    rw [if_pos covered]
    exact (if_pos covered).trans (image.byteAt_codeBytes _ within)
  · rw [if_neg covered]
    exact if_neg covered

/-! ### Several images -/

/-- Installing depends on what was installed before through the size of memory only. -/
theorem outcome_install (machine : Machine) (image other : Image) :
    ((machine.install other).2.install image).1 = (machine.install image).1 := by
  have kept := machine.capacity_install other
  by_cases fits : image.address.toNat + image.code.size ≤ machine.capacity
  · rw [install_of_fits fits, install_of_fits (kept ▸ fits)]
  · rw [install_of_not_fits fits, install_of_not_fits (kept ▸ fits), kept]

/-- To install an image once more changes nothing. -/
theorem install_install (machine : Machine) (image : Image) :
    (machine.install image).2.install image = machine.install image := by
  by_cases fits : image.address.toNat + image.code.size ≤ machine.capacity
  · have fits' : image.address.toNat + image.code.size ≤ (machine.install image).2.capacity := by
      rwa [capacity_install]
    have memory : ((machine.install image).2.install image).2.memory =
        (machine.install image).2.memory := by
      refine Bytes.buffer_ext (capacity_install _ _) fun index => ?_
      rw [byteAt_install fits', byteAt_install fits]
      by_cases covered : image.Covers index
      · rw [if_pos covered, if_pos covered]
      · rw [if_neg covered]
    rw [install_of_fits fits'] at memory ⊢
    rw [install_of_fits fits] at memory ⊢
    exact congrArg (fun memory => (_, { machine with pc := image.entry.toInt64, memory })) memory
  · rw [install_of_not_fits fits, install_of_not_fits fits]

/-- Images that have no byte in common may be installed in either order. -/
theorem memory_install_comm (disjoint : ∀ index, image.Covers index → ¬other.Covers index) :
    ((machine.install image).2.install other).2.memory =
      ((machine.install other).2.install image).2.memory := by
  have sizes : ∀ first second : Image,
      ((machine.install first).2.install second).2.capacity = machine.capacity := by
    intro first second
    rw [capacity_install, capacity_install]
  by_cases fits : image.address.toNat + image.code.size ≤ machine.capacity
  · by_cases fits' : other.address.toNat + other.code.size ≤ machine.capacity
    · refine Bytes.buffer_ext ((sizes image other).trans (sizes other image).symm) fun index => ?_
      rw [byteAt_install (by rwa [capacity_install]), byteAt_install fits,
        byteAt_install (by rwa [capacity_install]), byteAt_install fits']
      by_cases covered : image.Covers index
      · rw [if_pos covered, if_pos covered, if_neg (disjoint index covered)]
      · rw [if_neg covered, if_neg covered]
    · have beyond :
          ¬other.address.toNat + other.code.size ≤ (machine.install image).2.capacity := by
        rwa [capacity_install]
      rw [install_of_not_fits fits', install_of_not_fits beyond]
  · have beyond : ¬image.address.toNat + image.code.size ≤ (machine.install other).2.capacity := by
      rwa [capacity_install]
    rw [install_of_not_fits fits, install_of_not_fits beyond]

/-- To install an image is exact and all or nothing. It succeeds exactly if the code ends inside
memory, where the sum does not wrap around. Then the bytes that the code covers are those of the
code, the program counter is at the entry, and all other bytes, the registers and the sink are as
they were. Otherwise it reports where the code belongs, how long it is and how large memory is, and
changes nothing. Hence to do it twice is to do it once, and images that cover no byte in common
leave the same memory in either order, each with the outcome it has alone. -/
theorem install_exact (machine : Machine) (image : Image) :
    let installed := (machine.install image).2
    ((machine.install image).1 = .ok () ↔
        image.address.toNat + image.code.size ≤ machine.memory.size) ∧
      ((machine.install image).1 = .ok () →
        installed.memory.size = machine.memory.size ∧
        (∀ index, byteAt installed.memory index =
          if image.Covers index then byteAt image.code (index - image.address.toNat)
          else byteAt machine.memory index) ∧
        installed.pc = image.entry.toInt64 ∧ installed.registers = machine.registers ∧
        installed.sink = machine.sink) ∧
      ((machine.install image).1 ≠ .ok () →
        machine.install image =
          (.error (.overflow image.address image.code.size machine.memory.size), machine)) ∧
      installed.install image = machine.install image ∧
      ∀ other : Image, (∀ index, image.Covers index → ¬other.Covers index) →
        (installed.install other).2.memory =
            ((machine.install other).2.install image).2.memory ∧
          (installed.install other).1 = (machine.install other).1 ∧
          ((machine.install other).2.install image).1 = (machine.install image).1 := by
  intro installed
  refine ⟨install_eq_ok_iff, fun succeeded => ?_, fun failed => ?_, machine.install_install image,
    fun other disjoint => ⟨memory_install_comm disjoint, machine.outcome_install other image,
      machine.outcome_install image other⟩⟩
  · have fits := install_eq_ok_iff.mp succeeded
    have result : installed = _ := congrArg Prod.snd (install_of_fits fits)
    refine ⟨machine.capacity_install image, byteAt_install fits, ?_⟩
    rw [result]
    exact ⟨rfl, rfl, rfl⟩
  · exact install_of_not_fits fun fits => failed (install_eq_ok_iff.mpr fits)

/-- Two bytes at the end of a memory of four, code without bytes behind them and inside them, and
code whose end would wrap around. -/
theorem install_exact_end :
    let machine : Machine := { memory := ⟨#[1, 2, 3, 4]⟩ }
    let last : Image := ⟨9, 2, ⟨#[7, 8]⟩⟩
    let nothing (address : UInt64) : Image := ⟨0, address, ⟨#[]⟩⟩
    let wrapping : Image := ⟨0, 0xffffffffffffffff, ⟨#[7, 8]⟩⟩
    (machine.install last).1 = .ok () ∧ (machine.install last).2.pc = 9 ∧
      byteAt (machine.install last).2.memory 1 = 2 ∧
      byteAt (machine.install last).2.memory 3 = 8 ∧
      (machine.install (nothing 4)).1 = .ok () ∧
      machine.install wrapping = (.error (.overflow 0xffffffffffffffff 2 4), machine) ∧
      (∀ index, last.Covers index → ¬(nothing 3).Covers index) ∧
      ((machine.install last).2.install (nothing 3)).2.memory =
        ((machine.install (nothing 3)).2.install last).2.memory := by
  intro machine last nothing wrapping
  have disjoint : ∀ index, last.Covers index → ¬(nothing 3).Covers index := by
    rintro index - ⟨behind, before⟩
    exact absurd before (Nat.not_lt.mpr behind)
  obtain ⟨accepted, exact, -, -, commute⟩ := install_exact machine last
  have succeeded := accepted.mpr (by decide)
  obtain ⟨-, bytes, pc, -⟩ := exact succeeded
  have outside : (machine.install wrapping).1 ≠ .ok () := fun inside =>
    absurd ((install_exact machine wrapping).1.mp inside) (by decide)
  exact ⟨succeeded, pc, bytes 1, bytes 3, (install_exact machine (nothing 4)).1.mpr (by decide),
    (install_exact machine wrapping).2.2.1 outside, disjoint, (commute (nothing 3) disjoint).1⟩

end Machine

end Hart
