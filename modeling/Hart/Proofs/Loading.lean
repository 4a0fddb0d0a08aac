/-
This file proves that loading a program forgets everything that happened before. Whether a file can
be loaded is a matter of the file and the size of memory, and so is everything that the program and
its host can see once it is loaded, up to the sink, which stays attached. A file that cannot be
loaded leaves the simulator alone: the image is measured before anything is cleared, and clearing
does not change the size that it was measured against.
-/

import Hart.Proofs.History
import Hart.Proofs.Listening

namespace Hart

open Bytes (byteAt zeros overwrite)

/-! ### What a load does -/

namespace Image

variable {file : ByteArray} {image : Image} {capacity : Nat}

theorem load_of_fits (parsed : ofElf file = .ok image)
    (fits : image.address.toNat + image.code.size ≤ capacity) : load file capacity = .ok image := by
  unfold load
  rw [parsed]
  dsimp only
  rw [check_of_le fits]

theorem load_of_not_fits (parsed : ofElf file = .ok image)
    (beyond : ¬image.address.toNat + image.code.size ≤ capacity) :
    load file capacity = .error (.overflow image.address image.code.size capacity) := by
  unfold load
  rw [parsed]
  dsimp only
  rw [check_of_lt beyond]

theorem load_of_error {error : LoadError} (refused : ofElf file = .error error) :
    load file capacity = .error error := by
  unfold load
  rw [refused]

end Image

namespace Simulator

/-- The simulator right after an image was loaded. -/
def started (simulator : Simulator) (image : Image) : Simulator where
  configuration := simulator.configuration
  machine :=
    { pc := image.entry.toInt64
      memory :=
        overwrite (zeros simulator.machine.capacity) image.address.toNat image.codeBytes
      sink := simulator.machine.sink }

variable {simulator : Simulator} {image : Image} {file : ByteArray}

theorem fits_reset
    (fits : image.address.toNat + image.code.size ≤ simulator.machine.capacity) :
    image.address.toNat + image.code.size ≤ simulator.reset.machine.capacity := by
  have kept : simulator.reset.machine.capacity = simulator.machine.capacity :=
    Bytes.size_zeros _
  rwa [kept]

/-- An image that passes the check is installed after the reset: the reset keeps the size of
memory. -/
theorem install_reset
    (fits : image.address.toNat + image.code.size ≤ simulator.machine.capacity) :
    simulator.reset.machine.install image = (.ok (), (simulator.started image).machine) :=
  Machine.install_of_fits (fits_reset fits)

theorem loadImage_of_fits
    (fits : image.address.toNat + image.code.size ≤ simulator.machine.capacity) :
    simulator.loadImage image = (.ok (), simulator.started image) := by
  unfold loadImage
  rw [Image.check_of_le fits]
  dsimp only
  rw [install_reset fits]
  rfl

theorem loadImage_of_not_fits
    (beyond : ¬image.address.toNat + image.code.size ≤ simulator.machine.capacity) :
    simulator.loadImage image =
      (.error (.overflow image.address image.code.size simulator.machine.capacity), simulator) := by
  unfold loadImage
  rw [Image.check_of_lt beyond]

theorem load_of_fits (parsed : Image.ofElf file = .ok image)
    (fits : image.address.toNat + image.code.size ≤ simulator.machine.capacity) :
    simulator.load file = (.ok (), simulator.started image) := by
  unfold load
  rw [Image.load_of_fits parsed fits]
  exact loadImage_of_fits fits

theorem load_of_not_fits (parsed : Image.ofElf file = .ok image)
    (beyond : ¬image.address.toNat + image.code.size ≤ simulator.machine.capacity) :
    simulator.load file =
      (.error (.overflow image.address image.code.size simulator.machine.capacity), simulator) := by
  unfold load
  rw [Image.load_of_not_fits parsed beyond]

theorem load_of_error {error : LoadError} (refused : Image.ofElf file = .error error) :
    simulator.load file = (.error error, simulator) := by
  unfold load
  rw [Image.load_of_error refused]

theorem load_eq_ok_iff :
    (simulator.load file).1 = .ok () ↔
      ∃ image, Image.ofElf file = .ok image ∧
        image.address.toNat + image.code.size ≤ simulator.machine.capacity := by
  cases parsed : Image.ofElf file with
  | error error =>
    rw [load_of_error parsed]
    constructor
    · nofun
    · nofun
  | ok image =>
    by_cases fits : image.address.toNat + image.code.size ≤ simulator.machine.capacity
    · rw [load_of_fits parsed fits]
      exact ⟨fun _ => ⟨image, rfl, fits⟩, fun _ => rfl⟩
    · rw [load_of_not_fits parsed fits]
      constructor
      · nofun
      · rintro ⟨other, same, fits'⟩
        cases same
        exact absurd fits' fits

theorem load_of_ne_ok (failed : (simulator.load file).1 ≠ .ok ()) :
    (simulator.load file).2 = simulator := by
  cases parsed : Image.ofElf file with
  | error error => rw [load_of_error parsed]
  | ok image =>
    by_cases fits : image.address.toNat + image.code.size ≤ simulator.machine.capacity
    · rw [load_of_fits parsed fits] at failed
      exact absurd rfl failed
    · rw [load_of_not_fits parsed fits]

/-- Putting an image into a simulator starts it over or leaves it alone. -/
theorem loadImage_cases (simulator : Simulator) (image : Image) :
    simulator.loadImage image = (.ok (), simulator.started image) ∨
      ∃ error, simulator.loadImage image = (.error error, simulator) := by
  by_cases fits : image.address.toNat + image.code.size ≤ simulator.machine.capacity
  · exact Or.inl (loadImage_of_fits fits)
  · exact Or.inr ⟨_, loadImage_of_not_fits fits⟩

theorem load_cases (simulator : Simulator) (file : ByteArray) :
    (∃ image, simulator.load file = (.ok (), simulator.started image)) ∨
      ∃ error, simulator.load file = (.error error, simulator) := by
  unfold load
  cases Image.load file simulator.machine.capacity with
  | ok image => exact (simulator.loadImage_cases image).imp_left fun loaded => ⟨image, loaded⟩
  | error error => exact Or.inr ⟨error, rfl⟩

theorem loadFile_cases (simulator : Simulator) (path : String)
    (file : Except CommandLine.ReadError ByteArray) :
    (∃ image, CommandLine.loadFile simulator path file = (.ok (), simulator.started image)) ∨
      ∃ failure, CommandLine.loadFile simulator path file = (.error failure, simulator) := by
  unfold CommandLine.loadFile
  cases file with
  | error error => exact Or.inr ⟨_, rfl⟩
  | ok contents =>
    dsimp only
    obtain ⟨image, loaded⟩ | ⟨error, failed⟩ := simulator.load_cases contents
    · rw [loaded]
      exact Or.inl ⟨image, rfl⟩
    · rw [failed]
      exact Or.inr ⟨_, rfl⟩

/-! ### What a loaded simulator is like -/

/-- All of memory is zero except for the code. -/
theorem byteAt_started
    (fits : image.address.toNat + image.code.size ≤ simulator.machine.capacity) (index : Nat) :
    byteAt (simulator.started image).machine.memory index =
      if image.address.toNat ≤ index ∧ index < image.address.toNat + image.code.size then
        byteAt image.code (index - image.address.toNat)
      else 0 := by
  have installed : (simulator.reset.machine.install image).2 =
      (simulator.started image).machine := congrArg Prod.snd (install_reset fits)
  rw [← installed, Machine.byteAt_install (fits_reset fits)]
  by_cases covered : image.Covers index
  · rw [if_pos covered]
    exact (if_pos covered).symm
  · rw [if_neg covered]
    exact (Bytes.byteAt_zeros _ _).trans (if_neg covered).symm

theorem size_started :
    (simulator.started image).machine.memory.size = simulator.machine.memory.size :=
  (Bytes.size_overwrite _ _ _).trans (Bytes.size_zeros _)

theorem read_zero (index : RegisterIndex) : Registers.zero.read index = 0 := by
  show (Vector.replicate 32 (0 : UInt64))[index.val] = 0
  exact Vector.getElem_replicate index.isLt

/-- Up to configuration and sink, a simulator that was used and a new one of the same size are the
same once an image is loaded. -/
theorem started_eq_retarget (other : Configuration)
    (size : other.memorySize = simulator.machine.memory.size) :
    simulator.started image =
      ((Simulator.new other).started image).retarget simulator.configuration
        simulator.machine.sink := by
  have capacity : (Simulator.new other).machine.capacity = simulator.machine.capacity :=
    (capacity_new other).trans size
  unfold started
  rw [capacity]
  rfl

theorem play_attachSink (fresh : Simulator) (calls : List Call) {deliveries : List Delivery}
    (same : ∀ configuration sink, (fresh.retarget configuration sink).play calls =
      ((fresh.play calls).1,
        (fresh.play calls).2.retarget configuration (hear sink deliveries))) :
    (fresh.attachSink.play calls).2.machine.sink = some ⟨deliveries.toArray⟩ := by
  have attached : fresh.attachSink = fresh.retarget fresh.configuration (some {}) := rfl
  rw [attached, same]
  exact congrArg (fun received => some (Sink.mk received)) (Array.empty_append)

/-- After any history a load depends on the file and the size of memory only. It succeeds exactly if
the file holds an image that ends inside memory. Then memory is zero except for the code, the
registers are zero, the program counter is at the entry and nothing counts as executed, while sink
and configuration stay; and whatever is called afterwards is answered as by a new simulator of that
size, ends in the same state, and lets the sink hear what the sink of the new simulator hears. A
load that fails changes nothing, and an image that passes the check is always installed after the
reset. -/
theorem load_forgets (configuration : Configuration) (history : List Request) (file : ByteArray) :
    let simulator := (Simulator.new configuration).serveAll history
    let loaded := (simulator.load file).2
    ((simulator.load file).1 = .ok () ↔
        ∃ image, Image.ofElf file = .ok image ∧
          image.address.toNat + image.code.size ≤ simulator.machine.memory.size) ∧
      (∀ image, Image.ofElf file = .ok image → (simulator.load file).1 = .ok () →
        loaded.machine.memory.size = configuration.memorySize ∧
        (∀ index, byteAt loaded.machine.memory index =
          if image.address.toNat ≤ index ∧ index < image.address.toNat + image.code.size then
            byteAt image.code (index - image.address.toNat)
          else 0) ∧
        (∀ index, loaded.machine.registers.read index = 0) ∧
        loaded.machine.pc = image.entry.toInt64 ∧ loaded.steps = 0 ∧
        loaded.machine.sink = simulator.machine.sink ∧
        loaded.configuration = configuration) ∧
      ((simulator.load file).1 = .ok () →
        ∀ other : Configuration, other.memorySize = simulator.machine.memory.size →
          let fresh := ((Simulator.new other).load file).2
          ((Simulator.new other).load file).1 = .ok () ∧
            ∀ calls, ∃ deliveries : List Delivery,
              (fresh.attachSink.play calls).2.machine.sink = some ⟨deliveries.toArray⟩ ∧
              loaded.play calls =
                ((fresh.play calls).1,
                  (fresh.play calls).2.retarget configuration
                    (hear simulator.machine.sink deliveries))) ∧
      ((simulator.load file).1 ≠ .ok () → loaded = simulator) ∧
      (∀ image, image.check simulator.machine.capacity = .ok () →
        (simulator.reset.machine.install image).1 = .ok ()) := by
  intro simulator loaded
  have frame : simulator.frame = (Simulator.new configuration).frame :=
    frame_serveAll history (Simulator.new configuration)
  have kept : simulator.configuration = configuration := congrArg Prod.fst frame
  have size : simulator.machine.capacity = configuration.memorySize :=
    (congrArg Prod.snd frame).trans (capacity_new configuration)
  refine ⟨load_eq_ok_iff, ?_, ?_, load_of_ne_ok, ?_⟩
  · intro image parsed succeeded
    obtain ⟨other, parsed', fits⟩ := load_eq_ok_iff.mp succeeded
    cases parsed.symm.trans parsed'
    have started : loaded = simulator.started image :=
      congrArg Prod.snd (load_of_fits parsed fits)
    rw [started]
    exact ⟨size_started.trans size, byteAt_started fits, read_zero, rfl, rfl, rfl, kept⟩
  · intro succeeded other same
    obtain ⟨image, parsed, fits⟩ := load_eq_ok_iff.mp succeeded
    have started : loaded = simulator.started image :=
      congrArg Prod.snd (load_of_fits parsed fits)
    have fits' : image.address.toNat + image.code.size ≤
        (Simulator.new other).machine.capacity := by
      rw [capacity_new, same]
      exact fits
    intro fresh
    have fresh' : fresh = (Simulator.new other).started image :=
      congrArg Prod.snd (load_of_fits parsed fits')
    refine ⟨congrArg Prod.fst (load_of_fits parsed fits'), fun calls => ?_⟩
    obtain ⟨deliveries, law⟩ := play_retarget calls fresh
    refine ⟨deliveries, play_attachSink fresh calls law, ?_⟩
    rw [started, started_eq_retarget other same, ← fresh', law, kept]
  · intro image checked
    rw [install_reset (Image.le_of_check checked)]

/-- An executable file with one instruction, which belongs at address 16. -/
def smallFile : ByteArray := ⟨#[
  0x7f, 0x45, 0x4c, 0x46, 0x2, 0x1, 0x1, 0, 0, 0, 0, 0, 0, 0, 0, 0,
  0x2, 0, 0xf3, 0, 0x1, 0, 0, 0, 0x10, 0, 0, 0, 0, 0, 0, 0,
  0, 0, 0, 0, 0, 0, 0, 0, 0x50, 0, 0, 0, 0, 0, 0, 0,
  0, 0, 0, 0, 0x40, 0, 0, 0, 0, 0, 0x40, 0, 0x2, 0, 0x1, 0,
  0x13, 0, 0, 0, 0x2e, 0x74, 0x65, 0x78, 0x74, 0, 0, 0, 0, 0, 0, 0,
  0, 0, 0, 0, 0x1, 0, 0, 0, 0, 0, 0, 0, 0, 0, 0, 0,
  0x10, 0, 0, 0, 0, 0, 0, 0, 0x40, 0, 0, 0, 0, 0, 0, 0,
  0x4, 0, 0, 0, 0, 0, 0, 0, 0, 0, 0, 0, 0, 0, 0, 0,
  0, 0, 0, 0, 0, 0, 0, 0, 0, 0, 0, 0, 0, 0, 0, 0,
  0x5, 0, 0, 0, 0x3, 0, 0, 0, 0, 0, 0, 0, 0, 0, 0, 0,
  0, 0, 0, 0, 0, 0, 0, 0, 0x44, 0, 0, 0, 0, 0, 0, 0,
  0x6, 0, 0, 0, 0, 0, 0, 0, 0, 0, 0, 0, 0, 0, 0, 0,
  0, 0, 0, 0, 0, 0, 0, 0, 0, 0, 0, 0, 0, 0, 0, 0]⟩

theorem ofElf_smallFile :
    ∃ image, Image.ofElf smallFile = .ok image ∧ image.entry = 16 ∧ image.address = 16 ∧
      image.code.data.toList = [0x13, 0, 0, 0] := by
  have parsed : (Image.ofElf smallFile).toOption.map
      (fun image => (image.entry, image.address, image.code.data.toList)) =
        some (16, 16, [0x13, 0, 0, 0]) := by
    decide +kernel
  cases found : Image.ofElf smallFile with
  | error error =>
    rw [found] at parsed
    cases parsed
  | ok image =>
    rw [found] at parsed
    obtain ⟨entry, rest⟩ := Prod.mk.inj (Option.some.inj parsed)
    obtain ⟨address, code⟩ := Prod.mk.inj rest
    exact ⟨image, rfl, entry, address, code⟩

/-- The small file loads into a small memory, and what was poked into the memory is gone. -/
theorem load_forgets_smallFile :
    ∃ simulator, simulator = (Simulator.new { memorySize := 32 }).serveAll
        [.pokeMemory 0 [1, 2, 3], .pokeRegister 5 7] ∧
      (simulator.load smallFile).1 = .ok () ∧
      (simulator.load smallFile).2.machine.pc = 16 ∧
      byteAt (simulator.load smallFile).2.machine.memory 0 = 0 ∧
      ∀ index, (simulator.load smallFile).2.machine.registers.read index = 0 := by
  obtain ⟨image, parsed, entry, address, code⟩ := ofElf_smallFile
  have length : image.code.size = 4 := congrArg List.length code
  obtain ⟨accepted, left, -⟩ := load_forgets { memorySize := 32 }
    [.pokeMemory 0 [1, 2, 3], .pokeRegister 5 7] smallFile
  have fits : image.address.toNat + image.code.size ≤
      ((Simulator.new { memorySize := 32 }).serveAll
        [.pokeMemory 0 [1, 2, 3], .pokeRegister 5 7]).machine.memory.size := by
    rw [address, length]
    decide +kernel
  have succeeded := accepted.mpr ⟨image, parsed, fits⟩
  obtain ⟨-, bytes, registers, pc, -⟩ := left image parsed succeeded
  have first := bytes 0
  rw [address] at first
  rw [entry] at pc
  exact ⟨_, rfl, succeeded, pc, first, registers⟩

end Simulator

end Hart
