/-
This file says what loads and stores do to the bytes of memory. A store replaces as many bytes as it
is wide and leaves every other byte alone, and a load sees nothing but bytes. So a load after a
store finds the number that replaced and old bytes write together, in whatever way the two accesses
overlap, and stores that do not meet may be exchanged.

An access has to lie inside memory as a matter of natural numbers: an address near the largest one
does not wrap around to the first bytes. The console exempts stores only. To a load its address is
one of memory like any other.
-/

import Hart.Machine.State
import Hart.Proofs.Placement

namespace Hart

open Bytes (byteAt slice littleEndian ofNumber)

namespace Machine

variable {machine : Machine} {address other : UInt64} {width size : Nat} {value stored : UInt64}

/-! ### Which accesses succeed -/

theorem width_bounds (real : width ∈ accessWidths) : 0 < width ∧ width ≤ 8 := by
  revert width
  decide

/-- The three ways of a store: to the console, to memory, or nowhere. -/
theorem write?_cases (machine : Machine) (address : UInt64) (width : Nat) (value : UInt64) :
    (width ∈ accessWidths ∧ address = console ∧
      machine.write? address width value = .ok (.deliver ⟨value.toUInt8, address⟩)) ∨
    (width ∈ accessWidths ∧ address ≠ console ∧ address.toNat + width ≤ machine.capacity ∧
      machine.write? address width value =
        .ok (.memory address.toNat (ofNumber width value.toNat))) ∨
    (¬(width ∈ accessWidths ∧
        (address = console ∨ address.toNat + width ≤ machine.capacity)) ∧
      machine.write? address width value = .error (.memoryFault address width)) := by
  by_cases real : width ∈ accessWidths
  · rw [write?_eq real]
    by_cases atConsole : address = console
    · exact .inl ⟨real, atConsole, if_pos atConsole⟩
    · rw [if_neg atConsole]
      by_cases inside : address.toNat + width ≤ machine.capacity
      · exact .inr (.inl ⟨real, atConsole, inside, if_pos inside⟩)
      · exact .inr (.inr ⟨fun permitted => permitted.2.elim atConsole inside, if_neg inside⟩)
  · refine .inr (.inr ⟨fun permitted => real permitted.1, ?_⟩)
    unfold write? accessible
    simp [real]

theorem store_of_write {write : Write} (works : machine.write? address width value = .ok write) :
    machine.store address width value = (.ok (), machine.commit write) := by
  rw [store, works]

theorem store_of_error {trap : Trap} (fails : machine.write? address width value = .error trap) :
    machine.store address width value = (.error trap, machine) := by
  rw [store, fails]

/-- A store that succeeds has something to carry out. -/
theorem exists_write (succeeds : (machine.store address width value).1 = .ok ()) :
    ∃ write, machine.write? address width value = .ok write := by
  cases works : machine.write? address width value with
  | ok write => exact ⟨write, rfl⟩
  | error trap =>
    rw [store_of_error works] at succeeds
    cases succeeds

theorem store_succeeds_iff :
    (machine.store address width value).1 = .ok () ↔
      width ∈ accessWidths ∧ (address = console ∨ address.toNat + width ≤ machine.capacity) := by
  rcases machine.write?_cases address width value with
    ⟨real, atConsole, works⟩ | ⟨real, -, inside, works⟩ | ⟨refused, fails⟩
  · rw [store_of_write works]
    exact ⟨fun _ => ⟨real, .inl atConsole⟩, fun _ => rfl⟩
  · rw [store_of_write works]
    exact ⟨fun _ => ⟨real, .inr inside⟩, fun _ => rfl⟩
  · rw [store_of_error fails]
    exact ⟨fun succeeds => (nomatch succeeds), fun permitted => absurd permitted refused⟩

/-- A store that does not succeed changes nothing. -/
theorem store_of_fails (fails : (machine.store address width value).1 ≠ .ok ()) :
    machine.store address width value = (.error (.memoryFault address width), machine) := by
  rcases machine.write?_cases address width value with
    ⟨-, -, works⟩ | ⟨-, -, -, works⟩ | ⟨-, works⟩
  · exact absurd (congrArg Prod.fst (store_of_write works)) fails
  · exact absurd (congrArg Prod.fst (store_of_write works)) fails
  · exact store_of_error works

/-- A store elsewhere than at the console succeeds by replacing bytes. -/
theorem store_elsewhere (succeeds : (machine.store address width value).1 = .ok ())
    (elsewhere : address ≠ console) :
    address.toNat + width ≤ machine.capacity ∧
      (machine.store address width value).2 =
        { machine with
          memory :=
            Bytes.overwrite machine.memory address.toNat (ofNumber width value.toNat) } := by
  rcases machine.write?_cases address width value with
    ⟨-, atConsole, -⟩ | ⟨-, -, inside, works⟩ | ⟨-, works⟩
  · exact absurd atConsole elsewhere
  · exact ⟨inside, congrArg Prod.snd (store_of_write works)⟩
  · rw [store_of_error works] at succeeds
    cases succeeds

theorem load_of_real (real : width ∈ accessWidths)
    (inside : address.toNat + width ≤ machine.capacity) :
    machine.load address width =
      .ok (UInt64.ofNat (littleEndian (slice machine.memory address.toNat width))) := by
  rw [load_eq real, if_pos inside]

/-- A load succeeds inside memory and nowhere else, and fails with its own address and width. -/
theorem load_cases (machine : Machine) (address : UInt64) (width : Nat) :
    (width ∈ accessWidths ∧ address.toNat + width ≤ machine.capacity ∧
      ∃ number, machine.load address width = .ok number) ∨
    (¬(width ∈ accessWidths ∧ address.toNat + width ≤ machine.capacity) ∧
      machine.load address width = .error (.memoryFault address width)) := by
  by_cases real : width ∈ accessWidths
  · by_cases inside : address.toNat + width ≤ machine.capacity
    · exact .inl ⟨real, inside, _, load_of_real real inside⟩
    · refine .inr ⟨fun permitted => inside permitted.2, ?_⟩
      rw [load_eq real, if_neg inside]
  · refine .inr ⟨fun permitted => real permitted.1, ?_⟩
    unfold load accessible
    simp [real]

/-! ### What a load sees -/

/-- A load finds the sum of the bytes, each with the weight of its place. Eight bytes at most leave
nothing to cut off. -/
theorem toNat_of_load {number : UInt64} (loads : machine.load address width = .ok number) :
    number.toNat = ∑ index ∈ Finset.range width,
      (byteAt machine.memory (address.toNat + index)).toNat * 256 ^ index := by
  rcases machine.load_cases address width with ⟨real, inside, -⟩ | ⟨-, fails⟩
  · have bounded := Bytes.littleEndian_lt (slice machine.memory address.toNat width)
    rw [Bytes.length_slice] at bounded
    have fits : 256 ^ width ≤ 2 ^ 64 :=
      Nat.pow_le_pow_right (by decide) (width_bounds real).2
    rw [load_of_real real inside] at loads
    cases loads
    rw [UInt64.toNat_ofNat', Nat.mod_eq_of_lt (bounded.trans_le fits), Bytes.littleEndian_slice]
  · rw [fails] at loads
    cases loads

/-! ### What a store leaves behind -/

/-- The byte of memory at an index once the lowest `width` bytes of a value have replaced those from
an address on. -/
def storedByte (machine : Machine) (address : UInt64) (width : Nat) (value : UInt64)
    (index : Nat) : UInt8 :=
  if address.toNat ≤ index ∧ index < address.toNat + width then
    UInt8.ofNat (value.toNat / 256 ^ (index - address.toNat))
  else byteAt machine.memory index

theorem storedByte_inside {index : Nat} (inside : index < width) :
    machine.storedByte address width value (address.toNat + index) =
      UInt8.ofNat (value.toNat / 256 ^ index) := by
  have within : address.toNat ≤ address.toNat + index ∧
      address.toNat + index < address.toNat + width := by omega
  rw [storedByte, if_pos within, Nat.add_sub_cancel_left]

theorem storedByte_outside {index : Nat}
    (outside : index < address.toNat ∨ address.toNat + width ≤ index) :
    machine.storedByte address width value index = byteAt machine.memory index :=
  if_neg (by omega)

theorem byteAt_store (succeeds : (machine.store address width value).1 = .ok ())
    (elsewhere : address ≠ console) (index : Nat) :
    byteAt (machine.store address width value).2.memory index =
      machine.storedByte address width value index := by
  obtain ⟨inside, after⟩ := store_elsewhere succeeds elsewhere
  have fits : address.toNat + (ofNumber width value.toNat).length ≤ machine.memory.size := by
    rw [Bytes.length_ofNumber]
    exact inside
  rw [after, Bytes.byteAt_overwrite _ _ _ _ fits, Bytes.length_ofNumber, storedByte]
  by_cases within : address.toNat ≤ index ∧ index < address.toNat + width
  · have place : index - address.toNat < width := by omega
    rw [if_pos within, if_pos within, Bytes.getElem?_ofNumber, if_pos place,
      Nat.shiftRight_eq_div_pow, Nat.pow_mul]
    rfl
  · rw [if_neg within, if_neg within]

/-- What was stored is found again, as far as the width reaches. -/
theorem load_store_self (succeeds : (machine.store address width value).1 = .ok ())
    (elsewhere : address ≠ console) :
    ∃ number, (machine.store address width value).2.load address width = .ok number ∧
      number.toNat = value.toNat % 2 ^ (8 * width) := by
  obtain ⟨inside, after⟩ := store_elsewhere succeeds elsewhere
  have real := (store_succeeds_iff.mp succeeds).1
  have fits : address.toNat + (ofNumber width value.toNat).length ≤ machine.memory.size := by
    rw [Bytes.length_ofNumber]
    exact inside
  have stands := Bytes.slice_overwrite_self _ _ _ fits
  rw [Bytes.length_ofNumber] at stands
  have capacity := machine.capacity_commit (.memory address.toNat (ofNumber width value.toNat))
  have small : value.toNat % 256 ^ width < 2 ^ 64 :=
    (Nat.mod_le _ _).trans_lt value.toNat_lt
  rw [after]
  refine ⟨_, load_of_real real (inside.trans_eq capacity.symm), ?_⟩
  rw [stands, Bytes.littleEndian_ofNumber, UInt64.toNat_ofNat', Nat.mod_eq_of_lt small,
    Nat.pow_mul]

/-! ### Two stores -/

/-- Whether a store succeeds, and what it amounts to, does not depend on what was stored before. -/
theorem write?_commit (write : Write) :
    (machine.commit write).write? address width value = machine.write? address width value := by
  unfold write? accessible
  rw [capacity_commit]

theorem commit_comm {first second : Write}
    (works : machine.write? address width value = .ok first)
    (works' : machine.write? other size stored = .ok second)
    (disjoint : address.toNat + width ≤ other.toNat ∨ other.toNat + size ≤ address.toNat) :
    (machine.commit first).commit second = (machine.commit second).commit first := by
  rcases machine.write?_cases address width value with
    ⟨real, atConsole, found⟩ | ⟨-, -, inside, found⟩ | ⟨-, found⟩ <;>
  rcases machine.write?_cases other size stored with
    ⟨real', atConsole', found'⟩ | ⟨-, -, inside', found'⟩ | ⟨-, found'⟩ <;>
  cases works.symm.trans found <;> cases works'.symm.trans found'
  · -- two stores at the console meet there
    have positive := (width_bounds real).1
    have positive' := (width_bounds real').1
    rw [atConsole, atConsole'] at disjoint
    omega
  · rfl
  · rfl
  · have memories := Bytes.overwrite_comm machine.memory address.toNat other.toNat
      (ofNumber width value.toNat) (ofNumber size stored.toNat)
      (by rw [Bytes.length_ofNumber]; exact inside)
      (by rw [Bytes.length_ofNumber]; exact inside')
      (by rw [Bytes.length_ofNumber, Bytes.length_ofNumber]; exact disjoint)
    exact congrArg (fun memory => { machine with memory }) memories

/-- Two stores that succeed and do not meet may come in either order. -/
theorem store_comm (succeeds : (machine.store address width value).1 = .ok ())
    (succeeds' : (machine.store other size stored).1 = .ok ())
    (disjoint : address.toNat + width ≤ other.toNat ∨ other.toNat + size ≤ address.toNat) :
    ∃ last, (machine.store address width value).2.store other size stored = (.ok (), last) ∧
      (machine.store other size stored).2.store address width value = (.ok (), last) := by
  obtain ⟨first, works⟩ := exists_write succeeds
  obtain ⟨second, works'⟩ := exists_write succeeds'
  refine ⟨(machine.commit first).commit second, ?_, ?_⟩
  · rw [store_of_write works]
    exact store_of_write ((write?_commit first).trans works')
  · rw [store_of_write works', commit_comm works works' disjoint]
    exact store_of_write ((write?_commit second).trans works)

/-! ### The law of memory -/

/-- Memory obeys the law of single bytes. A store succeeds if its width exists and it starts at the
console or ends inside memory, and otherwise changes nothing. A store to memory puts the bytes of
its value in their places and changes nothing else; every load behind it finds the number that the
bytes write, whatever the two have in common, and the load of what was stored finds its lowest
bytes. Stores that succeed and do not meet may be exchanged. A load succeeds if its width exists and
it ends inside memory, the console's address included. It answers with a number and no machine, so
there is none that it could have changed. -/
theorem accesses_are_bytewise (machine : Machine) (address : UInt64) (width : Nat)
    (value : UInt64) :
    let succeeds := (machine.store address width value).1 = .ok ()
    let after := (machine.store address width value).2
    (succeeds ↔
        width ∈ [1, 2, 4, 8] ∧
          (address = 0x10000 ∨ address.toNat + width ≤ machine.capacity)) ∧
      (¬succeeds →
        machine.store address width value = (.error (.memoryFault address width), machine)) ∧
      (succeeds → address ≠ 0x10000 →
        after = { machine with memory := after.memory } ∧
          after.memory.size = machine.memory.size ∧
          (∀ index < width,
            byteAt after.memory (address.toNat + index) =
              UInt8.ofNat (value.toNat / 256 ^ index)) ∧
          (∀ index, index < address.toNat ∨ address.toNat + width ≤ index →
            byteAt after.memory index = byteAt machine.memory index) ∧
          (∀ (other : UInt64) (size : Nat), size ∈ [1, 2, 4, 8] →
            other.toNat + size ≤ machine.capacity →
              ∃ number, after.load other size = .ok number ∧
                number.toNat = ∑ index ∈ Finset.range size,
                  (machine.storedByte address width value (other.toNat + index)).toNat *
                    256 ^ index) ∧
          ∃ number, after.load address width = .ok number ∧
            number.toNat = value.toNat % 2 ^ (8 * width)) ∧
      (∀ (other : UInt64) (size : Nat) (stored : UInt64), succeeds →
        (machine.store other size stored).1 = .ok () →
        (address.toNat + width ≤ other.toNat ∨ other.toNat + size ≤ address.toNat) →
          ∃ last, after.store other size stored = (.ok (), last) ∧
            (machine.store other size stored).2.store address width value = (.ok (), last)) ∧
      ∀ (other : UInt64) (size : Nat),
        ((∃ number, machine.load other size = .ok number) ↔
            size ∈ [1, 2, 4, 8] ∧ other.toNat + size ≤ machine.capacity) ∧
          ((∀ number, machine.load other size ≠ .ok number) →
            machine.load other size = .error (.memoryFault other size)) := by
  intro succeeds after
  refine ⟨store_succeeds_iff, store_of_fails, fun completed elsewhere => ?_,
    fun other size stored completed completed' disjoint => store_comm completed completed' disjoint,
    fun other size => ?_⟩
  · obtain ⟨-, shape⟩ := store_elsewhere completed elsewhere
    have memory : after.memory =
        Bytes.overwrite machine.memory address.toNat (ofNumber width value.toNat) :=
      congrArg Machine.memory shape
    have sizes : after.memory.size = machine.memory.size := by
      rw [memory]
      exact Bytes.size_overwrite _ _ _
    have bytes : ∀ index, byteAt after.memory index =
        machine.storedByte address width value index := byteAt_store completed elsewhere
    refine ⟨?_, sizes, fun index inside => ?_, fun index outside => ?_,
      fun other size real inside => ?_, load_store_self completed elsewhere⟩
    · rw [memory]
      exact shape
    · rw [bytes, storedByte_inside inside]
    · rw [bytes, storedByte_outside outside]
    · have loads := load_of_real real (inside.trans_eq sizes.symm)
      refine ⟨_, loads, ?_⟩
      rw [toNat_of_load loads]
      exact Finset.sum_congr rfl fun index _ => by rw [bytes]
  · rcases machine.load_cases other size with ⟨real, inside, loads⟩ | ⟨refused, fails⟩
    · exact ⟨⟨fun _ => ⟨real, inside⟩, fun _ => loads⟩,
        fun never => absurd loads.choose_spec (never _)⟩
    · refine ⟨⟨fun ⟨number, loads⟩ => ?_, fun permitted => absurd permitted refused⟩,
        fun _ => fails⟩
      rw [fails] at loads
      cases loads

/-- In sixteen bytes, a store of the last four is seen in part by a load of the last eight, may be
exchanged with a store of the four bytes before it, and neither an address near the largest one nor
a width of three at the console goes through. -/
theorem accesses_are_bytewise_sixteen :
    let machine : Machine :=
      { memory := ⟨#[0, 1, 2, 3, 4, 5, 6, 7, 8, 9, 10, 11, 12, 13, 14, 15]⟩ }
    let after := (machine.store 12 4 0x55aabbccdd).2
    after.load 8 8 = .ok 0xaabbccdd0b0a0908 ∧
      (∃ last, after.store 8 4 7 = (.ok (), last) ∧
        (machine.store 8 4 7).2.store 12 4 0x55aabbccdd = (.ok (), last)) ∧
      machine.store 0xfffffffffffffffc 8 7 =
        (.error (.memoryFault 0xfffffffffffffffc 8), machine) ∧
      machine.store 0x10000 3 7 = (.error (.memoryFault 0x10000 3), machine) ∧
      machine.load 0x10000 1 = .error (.memoryFault 0x10000 1) := by
  intro machine after
  have succeeds : (machine.store 12 4 0x55aabbccdd).1 = .ok () := by decide
  obtain ⟨-, -, merged, exchanged, loads⟩ := accesses_are_bytewise machine 12 4 0x55aabbccdd
  obtain ⟨number, found, sum⟩ :=
    (merged succeeds (by decide)).2.2.2.2.1 8 8 (by decide) (by decide)
  have value : number = 0xaabbccdd0b0a0908 := UInt64.toNat_inj.mp (sum.trans (by decide +kernel))
  refine ⟨value ▸ found, exchanged 8 4 7 succeeds (by decide) (by decide), ?_, ?_, ?_⟩
  · exact (accesses_are_bytewise machine 0xfffffffffffffffc 8 7).2.1 (by decide)
  · exact (accesses_are_bytewise machine 0x10000 3 7).2.1 (by decide)
  · refine (loads 0x10000 1).2 fun number found => ?_
    have inside := ((loads 0x10000 1).1.mp ⟨number, found⟩).2
    exact absurd inside (by decide)

end Machine

end Hart
