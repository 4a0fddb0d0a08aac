/-
This file says what it means that a run has stalled. A run stalls when an instruction is executed
and leaves the program counter where it was, which only a branch or a jump to itself can do. The
next step meets the same instruction in the same memory, but not necessarily with the same
registers: a jump may have written its link. So the question is whether the instruction reads what
it wrote.

Only an indirect jump can, where it links into its own base register. Its next target is then
computed from its own address, and except for the two offsets that lead back to it the program moves
on. Everything else that stalls has reached a state that no step changes any more.
-/

import Hart.Proofs.Console
import Hart.Proofs.ProgramCounter
import Hart.Proofs.ZeroRegister

namespace Hart

namespace Instruction

/-- Whether an instruction is an indirect jump that writes its link into the register from which its
target is computed. -/
def OverwritesBase (instruction : Instruction) : Prop :=
  instruction.operation = .jalr ∧ instruction.register .second = instruction.destination ∧
    instruction.destination.val ≠ 0

instance (instruction : Instruction) : Decidable instruction.OverwritesBase :=
  inferInstanceAs (Decidable (_ ∧ _ ∧ _))

/-- Where an indirect jump at an address leads if its base register holds the link. -/
def landing (instruction : Instruction) (address : Int64) : Int64 :=
  (((address + 4).toUInt64 + (instruction.immediate .third).toUInt64) &&& ~~~1).toInt64

/-- An indirect jump that led to itself leads from its link to itself for two offsets only: the one
that takes the link back, and the next one, whose lowest bit is cleared. -/
theorem landing_eq_iff {instruction : Instruction} {address : Int64} {base : UInt64}
    (arrives : ((base + (instruction.immediate .third).toUInt64) &&& ~~~1).toInt64 = address) :
    instruction.landing address = address ↔
      instruction.immediate .third = -4 ∨ instruction.immediate .third = -3 := by
  have told : ∀ first second : Int64,
      first = second ↔ first.toUInt64.toNat = second.toUInt64.toNat := fun first second =>
    ⟨fun same => congrArg (fun number => number.toUInt64.toNat) same,
      fun same => congrArg UInt64.toInt64 (UInt64.toNat_inj.mp same)⟩
  have four : (4 : Int64).toUInt64.toNat = 4 := by decide
  have back : (-4 : Int64).toUInt64.toNat = 2 ^ 64 - 4 := by decide
  have behind : (-3 : Int64).toUInt64.toNat = 2 ^ 64 - 3 := by decide
  have bounded := (instruction.immediate .third).toUInt64.toNat_lt
  have bounded' := address.toUInt64.toNat_lt
  rw [told, UInt64.toUInt64_toInt64, toNat_and_not_one] at arrives
  rw [told, told _ (-4), told _ (-3), landing, UInt64.toUInt64_toInt64, toNat_and_not_one,
    UInt64.toNat_add, Int64.toUInt64_add, UInt64.toNat_add, four, back, behind]
  omega

end Instruction

namespace Machine

variable {machine next : Machine} {instruction : Instruction} {effect : Effect}
  {target : Int64} {destination : RegisterIndex} {back : UInt64}

/-! ### Instructions that stay where they are -/

theorem add_four_ne (address : Int64) : address + 4 ≠ address := by
  intro same
  have values := congrArg Int64.toInt same
  have four : (4 : Int64).toInt = 4 := by decide
  rw [Int64.toInt_add, Int.bmod_def, four] at values
  split at values <;> omega

/-- What a step does that leaves the program counter where it was: it carries out a control transfer
to it, and nothing else. -/
structure StaysBy (machine next : Machine) (effect : Effect) : Prop where
  works : machine.clearZero.effect? machine.fetch = .ok effect
  target : effect.target? = some machine.pc
  jumps : machine.fetch.isJump = true
  size : machine.fetch.size = 4
  after : next = (machine.clearZero.apply effect).clearZero

theorem exists_staysBy (stepped : machine.step = (.continued, next))
    (stays : next.pc = machine.pc) : ∃ effect, StaysBy machine next effect := by
  obtain ⟨effect, works⟩ := exists_effect_of_continued (congrArg Prod.fst stepped)
  have parcel : Parcel machine.memory machine.pc machine.fetch := parcel_decode _ _
  obtain ⟨format, wellFormed⟩ := parcel.exists_wellFormed (isKnown_of_works works)
  obtain ⟨agree, pc⟩ := pc_execute_of_wellFormed wellFormed works
  have after : (machine.execute machine.fetch).2 = next := congrArg Prod.snd stepped
  rw [after, stays] at pc
  cases found : effect.target? with
  | none =>
    rw [found] at pc
    exact absurd pc.symm (add_four_ne machine.pc)
  | some target =>
    rw [found] at pc agree
    have jumps := agree.mp rfl
    refine ⟨effect, works, found.trans (congrArg some pc.symm), jumps, wellFormed.size, ?_⟩
    rw [← after, execute_of_ok works, advance, if_pos jumps]

theorem memory_apply (found : effect.target? = some target) :
    (machine.apply effect).memory = machine.memory := by
  cases effect with
  | branch target | link target destination back => rfl
  | none | result _ _ | write _ => cases found

/-- Carrying out a control transfer once more changes nothing. -/
theorem apply_apply (found : effect.target? = some target) :
    ((machine.clearZero.apply effect).clearZero.clearZero.apply effect).clearZero =
      (machine.clearZero.apply effect).clearZero := by
  cases effect with
  | branch target =>
    refine congrArg (fun registers => { machine with pc := target, registers }) ?_
    refine Registers.eq_of_read fun index => ?_
    simp only [apply, clearZero, Registers.read_clearZero]
    split <;> rfl
  | link target destination back =>
    refine congrArg (fun registers => { machine with pc := target, registers }) ?_
    refine Registers.eq_of_read fun index => ?_
    simp only [apply, clearZero, Registers.read_clearZero, Registers.read_write]
    by_cases zero : 0 = index
    · rw [if_pos zero, if_pos zero]
    · simp only [if_neg zero]
      split <;> rfl
  | none | result _ _ | write _ => cases found

namespace StaysBy

theorem pc_eq (stay : StaysBy machine next effect) : next.pc = machine.pc := by
  rw [stay.after]
  refine (pc_apply machine.clearZero effect).trans ?_
  rw [stay.target]
  rfl

theorem fetch_eq (stay : StaysBy machine next effect) : next.fetch = machine.fetch := by
  have memory : next.memory = machine.memory := by
    rw [stay.after]
    exact memory_apply stay.target
  rw [fetch, fetch, memory, stay.pc_eq]

/-- The instruction is the same again, and so is the address behind it. -/
theorem following_eq (stay : StaysBy machine next effect) (other : Machine)
    (same : other.pc = machine.pc) : other.following machine.fetch = machine.pc + 4 := by
  rw [following, stay.size, same]
  rfl

/-- If the instruction has the same effect again, the machine has come to rest. -/
theorem step_of_again (stay : StaysBy machine next effect)
    (again : next.clearZero.effect? machine.fetch = .ok effect) :
    next.step = (.continued, next) := by
  have rests : (next.clearZero.apply effect).clearZero = next := by
    rw [stay.after]
    exact apply_apply stay.target
  rw [step, stay.fetch_eq, execute_of_ok again, advance, if_pos stay.jumps, rests]

end StaysBy

/-! ### Whether it has the same effect again -/

theorem effect?_of_jal (jal : instruction.operation = .jal) :
    machine.effect? instruction =
      .ok (.link (machine.pc + instruction.immediate .second) instruction.destination
        (machine.following instruction).toUInt64) :=
  effect?_of_action _ (by rw [jal]; rfl)

theorem effect?_of_jalr (jalr : instruction.operation = .jalr) :
    machine.effect? instruction =
      .ok (.link (machine.effectiveAddress instruction .second &&& ~~~1).toInt64
        instruction.destination (machine.following instruction).toUInt64) :=
  effect?_of_action _ (by rw [jalr]; rfl)

theorem operation_of_link
    (works : machine.effect? instruction = .ok (.link target destination back)) :
    instruction.operation = .jal ∨ instruction.operation = .jalr := by
  obtain ⟨action, executes, kind⟩ := machine.exists_action works
  cases action with
  | jump => exact .inl (Operation.eq_jal_of_action executes)
  | jumpRegister => exact .inr (Operation.eq_jalr_of_action executes)
  | _ => cases kind

/-- The registers behind a link: the destination holds it, unless it is register zero. -/
theorem read_of_link (index : RegisterIndex) :
    (machine.clearZero.apply (.link target destination back)).clearZero.clearZero.registers.read
        index =
      if destination = index ∧ destination ≠ 0 then back
      else machine.clearZero.registers.read index := by
  simp only [apply, clearZero, Registers.read_clearZero, Registers.read_write]
  by_cases zero : 0 = index
  · have discarded : ¬(destination = index ∧ destination ≠ 0) := by
      rintro ⟨same, positive⟩
      exact positive (same.trans zero.symm)
    rw [if_pos zero, if_neg discarded, if_pos zero]
  · simp only [if_neg zero]

namespace StaysBy

/-- What an indirect jump does that stays where it is. -/
theorem eq_link_of_jalr (stay : StaysBy machine next effect)
    (jalr : machine.fetch.operation = .jalr) :
    effect = .link machine.pc machine.fetch.destination (machine.pc + 4).toUInt64 ∧
      (machine.clearZero.effectiveAddress machine.fetch .second &&& ~~~1).toInt64 =
        machine.pc := by
  have works := stay.works
  rw [effect?_of_jalr jalr, stay.following_eq machine.clearZero rfl] at works
  have target := stay.target
  cases works
  have arrives := Option.some.inj target
  rw [arrives]
  exact ⟨rfl, rfl⟩

/-- An instruction that does not overwrite its base does not read what it wrote. -/
theorem effect?_again (stay : StaysBy machine next effect)
    (spares : ¬machine.fetch.OverwritesBase) :
    next.clearZero.effect? machine.fetch = .ok effect := by
  rw [← stay.works]
  cases effect with
  | branch target =>
    cases stay.target
    have agree : next.AgreeAboveZero machine := by
      rw [stay.after]
      refine ⟨rfl, fun index positive => ?_, rfl, rfl⟩
      simp only [apply, clearZero, Registers.read_clearZero, if_neg (Ne.symm positive)]
    rw [agree.clearZero_eq]
  | link target destination back =>
    have following : next.clearZero.following machine.fetch =
        machine.clearZero.following machine.fetch := by
      rw [stay.following_eq next.clearZero stay.pc_eq, stay.following_eq machine.clearZero rfl]
    obtain jal | jalr := operation_of_link stay.works
    · rw [effect?_of_jal jal, effect?_of_jal jal, following]
      show Except.ok (Effect.link (next.pc + _) _ _) = _
      rw [stay.pc_eq]
      rfl
    · have base : next.clearZero.operand machine.fetch .second =
          machine.clearZero.operand machine.fetch .second := by
        have linked := (stay.eq_link_of_jalr jalr).1
        rw [stay.after, linked]
        refine (read_of_link _).trans (if_neg ?_)
        rintro ⟨same, positive⟩
        exact spares ⟨jalr, same.symm, fun zero => positive (Fin.ext zero)⟩
      rw [effect?_of_jalr jalr, effect?_of_jalr jalr, following, effectiveAddress, base]
      rfl
  | none | result _ _ | write _ => cases stay.target

/-- An instruction that overwrites its base finds its own link there. -/
theorem effect?_of_overwritten (stay : StaysBy machine next effect)
    (overwrites : machine.fetch.OverwritesBase) :
    next.registers.read (machine.fetch.register .second) = (machine.pc + 4).toUInt64 ∧
      next.clearZero.effect? machine.fetch =
        .ok (.link (machine.fetch.landing machine.pc) machine.fetch.destination
          (machine.pc + 4).toUInt64) := by
  obtain ⟨jalr, same, written⟩ := overwrites
  have positive : machine.fetch.destination ≠ 0 := fun zero => written (congrArg Fin.val zero)
  have linked := (stay.eq_link_of_jalr jalr).1
  have base : next.clearZero.operand machine.fetch .second = (machine.pc + 4).toUInt64 := by
    rw [stay.after, linked]
    exact (read_of_link _).trans (if_pos ⟨same.symm, positive⟩)
  have plain : next.clearZero.registers.read (machine.fetch.register .second) =
      next.registers.read (machine.fetch.register .second) := by
    refine (Registers.read_clearZero _ _).trans (if_neg ?_)
    rw [same]
    exact Ne.symm positive
  refine ⟨plain.symm.trans base, ?_⟩
  rw [effect?_of_jalr jalr, stay.following_eq next.clearZero stay.pc_eq, effectiveAddress, base]
  rfl

/-! ### Rest -/

/-- A machine that was left where it was rests, if the instruction spares its base or leads back
from its link. -/
theorem step_of_halts (stay : StaysBy machine next effect)
    (halts : ¬machine.fetch.OverwritesBase ∨ machine.fetch.immediate .third = -4 ∨
      machine.fetch.immediate .third = -3) : next.step = (.continued, next) := by
  by_cases overwrites : machine.fetch.OverwritesBase
  · obtain ⟨linked, arrives⟩ := stay.eq_link_of_jalr overwrites.1
    have returns := (Instruction.landing_eq_iff arrives).mpr
      (halts.resolve_left (not_not.mpr overwrites))
    refine stay.step_of_again ((stay.effect?_of_overwritten overwrites).2.trans ?_)
    rw [returns, linked]
  · exact stay.step_of_again (stay.effect?_again overwrites)

/-- Otherwise the next step leads somewhere else. -/
theorem step_of_overwritten (stay : StaysBy machine next effect)
    (overwrites : machine.fetch.OverwritesBase) :
    next.step.1 = .continued ∧ next.step.2.pc = machine.fetch.landing machine.pc ∧
      (machine.fetch.landing machine.pc = machine.pc ↔
        machine.fetch.immediate .third = -4 ∨ machine.fetch.immediate .third = -3) := by
  have again := (stay.effect?_of_overwritten overwrites).2
  have arrives := (stay.eq_link_of_jalr overwrites.1).2
  rw [step, stay.fetch_eq, execute_of_ok again, advance, if_pos stay.jumps]
  exact ⟨rfl, rfl, Instruction.landing_eq_iff arrives⟩

end StaysBy

end Machine

namespace Simulator

variable {simulator next : Simulator}

/-! ### Simulators at rest -/

/-- The simulator after executing instructions that changed nothing. -/
def idle (simulator : Simulator) (count : Nat) : Simulator :=
  { simulator with steps := simulator.steps + count }

/-- Whether the next instruction is executed, changes nothing, and is not heard. -/
structure Rests (simulator : Simulator) : Prop where
  step : simulator.machine.step = (.continued, simulator.machine)
  silent : simulator.delivered? = none

theorem Rests.idle (rests : simulator.Rests) (count : Nat) : (simulator.idle count).Rests :=
  ⟨rests.step, rests.silent⟩

theorem Rests.step_eq (rests : simulator.Rests) :
    simulator.step = (.continued, simulator.idle 1) := by
  rw [Simulator.step, rests.step]
  rfl

theorem idle_idle (simulator : Simulator) (first second : Nat) :
    (simulator.idle first).idle second = simulator.idle (second + first) :=
  congrArg (fun steps => { simulator with steps })
    ((Nat.add_assoc _ _ _).trans (congrArg (simulator.steps + ·) (Nat.add_comm first second)))

/-- Rest lasts: every number of further instructions is executed and changes nothing. -/
theorem Rests.after?_eq (rests : simulator.Rests) (count : Nat) :
    simulator.after? count = some (simulator.idle count) := by
  induction count generalizing simulator with
  | zero => rfl
  | succ count inductionHypothesis =>
    rw [after?_succ rests.step_eq, inductionHypothesis (rests.idle 1), idle_idle]

theorem Rests.deliveries_eq (rests : simulator.Rests) (count : Nat) :
    simulator.deliveries count = [] := by
  induction count generalizing simulator with
  | zero => rfl
  | succ count inductionHypothesis =>
    rw [deliveries_succ rests.step_eq, rests.silent, inductionHypothesis (rests.idle 1)]
    rfl

theorem Rests.run_eq (rests : simulator.Rests) (budget : Nat) :
    simulator.run (budget + 1) = (⟨1, simulator.pc, .stalled⟩, simulator.idle 1) :=
  run_of_stays rests.step_eq rfl

/-! ### Runs that stalled -/

/-- A run that stalled ends with an instruction that left the program counter where it was. -/
theorem exists_stall {budget : Nat} (stalled : (simulator.run budget).1.reason = .stalled) :
    ∃ before effect, Machine.StaysBy before (simulator.run budget).2.machine effect := by
  induction budget, simulator using run_induction with
  | zero simulator => cases stalled
  | trapped budget simulator trap next stepped =>
    rw [run_of_trapped stepped] at stalled
    cases stalled
  | stays budget simulator next stepped stays =>
    rw [run_of_stays stepped stays]
    have stepped' : simulator.machine.step = (.continued, next.machine) :=
      Prod.ext (by rw [← outcome_step, stepped]) (by rw [← machine_step, stepped])
    exact ⟨simulator.machine, Machine.exists_staysBy stepped' stays⟩
  | moves budget simulator next stepped moves inductionHypothesis =>
    rw [run_of_moves stepped moves] at stalled ⊢
    exact inductionHypothesis stalled

/-- A control transfer is not heard. -/
theorem silent_of_staysBy {before : Machine} {effect : Effect}
    (stay : Machine.StaysBy before next.machine effect) : next.delivered? = none := by
  have fetched : next.current = before.fetch := stay.fetch_eq
  obtain ⟨action, executes, kind⟩ := before.clearZero.exists_action stay.works
  have transfers := effect.isSome_target?_iff.mp (by rw [stay.target]; rfl)
  rw [kind] at transfers
  refine Machine.delivered?_of_no_store ?_
  rw [fetched]
  cases written : before.fetch.operation.storeWidth? with
  | none => rfl
  | some width =>
    rw [← Operation.store_iff, executes] at written
    cases written
    rcases transfers with other | other <;> cases other

/-- What it means that a run has stalled. If the instruction at which it stalled spares its base
register, or jumps back from its link, the program has halted: every further step is executed and
changes nothing, nothing more is heard, and every further run stalls at once and at the same place.
Otherwise it is an indirect jump that has just written its link into its own base register; the next
step is executed as well and leads from the link to another place. -/
theorem stalled_rests (simulator : Simulator) (budget : Nat)
    (stalled : (simulator.run budget).1.reason = .stalled) :
    let last := (simulator.run budget).2
    let instruction := last.current
    let offset := instruction.immediate .third
    (¬instruction.OverwritesBase ∨ offset = -4 ∨ offset = -3 →
        (∀ count, last.after? count = some (last.idle count) ∧ last.deliveries count = []) ∧
          ∀ more, last.run (more + 1) = (⟨1, last.pc, .stalled⟩, last.idle 1)) ∧
      (instruction.OverwritesBase → offset ≠ -4 → offset ≠ -3 →
        last.machine.registers.read (instruction.register .second) =
            (last.machine.pc + 4).toUInt64 ∧
          ∃ next, last.step = (.continued, next) ∧
            next.machine.pc = instruction.landing last.machine.pc ∧
            next.machine.pc ≠ last.machine.pc) := by
  intro last instruction offset
  obtain ⟨before, effect, stay⟩ := exists_stall stalled
  have fetched : instruction = before.fetch := stay.fetch_eq
  refine ⟨fun halts => ?_, fun overwrites other other' => ?_⟩
  · have rests : last.Rests := by
      refine ⟨stay.step_of_halts ?_, silent_of_staysBy stay⟩
      rw [← fetched]
      exact halts
    exact ⟨fun count => ⟨rests.after?_eq count, rests.deliveries_eq count⟩, rests.run_eq⟩
  · have overwrites' : before.fetch.OverwritesBase := fetched ▸ overwrites
    obtain ⟨base, -⟩ := stay.effect?_of_overwritten overwrites'
    obtain ⟨completed, lands, returns⟩ := stay.step_of_overwritten overwrites'
    rw [← fetched, ← stay.pc_eq] at base lands returns
    have leaves : instruction.landing last.machine.pc ≠ last.machine.pc :=
      fun same => (returns.mp same).elim other other'
    refine ⟨base, last.step.2, Prod.ext ((outcome_step last).trans completed) rfl, ?_, ?_⟩
    · rw [machine_step]
      exact lands
    · rw [machine_step, lands]
      exact leaves

/-- A direct jump that links and halts, and an indirect jump that links into its own base register
and does not. -/
theorem stalled_rests_link :
    let direct : Simulator :=
      { configuration := {}, machine := { memory := ⟨#[0xef, 0, 0, 0]⟩ } }
    let indirect : Simulator :=
      { configuration := {}, machine := { memory := ⟨#[0xe7, 0x80, 0, 0, 0x6f, 0, 0, 0]⟩ } }
    (direct.run 3).1 = ⟨1, 0, .stalled⟩ ∧ (direct.run 3).2.machine.registers.read 1 = 4 ∧
      (∀ count, (direct.run 3).2.after? count = some ((direct.run 3).2.idle count)) ∧
      (∀ more, ((direct.run 3).2.run (more + 1)).1 = ⟨1, 0, .stalled⟩) ∧
      (indirect.run 3).1 = ⟨1, 0, .stalled⟩ ∧ (indirect.run 3).2.current.OverwritesBase ∧
      ∃ next, (indirect.run 3).2.step = (.continued, next) ∧ next.machine.pc = 4 := by
  intro direct indirect
  have halted : (direct.run 3).1 = ⟨1, 0, .stalled⟩ := by decide +kernel
  have stalled : (indirect.run 3).1 = ⟨1, 0, .stalled⟩ := by decide +kernel
  have spares : ¬(direct.run 3).2.current.OverwritesBase := by decide +kernel
  have overwrites : (indirect.run 3).2.current.OverwritesBase := by decide +kernel
  have lands : (indirect.run 3).2.current.landing (indirect.run 3).2.machine.pc = 4 := by
    decide +kernel
  obtain ⟨rests, runs⟩ :=
    (stalled_rests direct 3 (congrArg Summary.reason halted)).1 (.inl spares)
  obtain ⟨-, next, stepped, arrives, -⟩ :=
    (stalled_rests indirect 3 (congrArg Summary.reason stalled)).2 overwrites
      (by decide +kernel) (by decide +kernel)
  refine ⟨halted, by decide +kernel, fun count => (rests count).1, fun more => ?_, stalled,
    overwrites, next, stepped, arrives.trans lands⟩
  have pc : (direct.run 3).2.pc = 0 := by decide +kernel
  rw [runs more, pc]

/-- Not every run that has stalled has halted. The indirect jump leads from zero to zero at first
and then from its link to the instruction after it, where the program stalls a second time. -/
theorem not_stalled_halts :
    (¬∀ (simulator : Simulator) (budget : Nat), (simulator.run budget).1.reason = .stalled →
      ∀ more, ((simulator.run budget).2.run (more + 1)).1 =
        ⟨1, (simulator.run budget).1.pc, .stalled⟩) ∧
      let simulator : Simulator :=
        { configuration := {}, machine := { memory := ⟨#[0xe7, 0x80, 0, 0, 0x6f, 0, 0, 0]⟩ } }
      (simulator.run 5).1 = ⟨1, 0, .stalled⟩ ∧ (simulator.run 5).2.step.1 = .continued ∧
        (simulator.run 5).2.step.2.machine.pc = 4 ∧
        ((simulator.run 5).2.run 5).1 = ⟨2, 4, .stalled⟩ := by
  have again : let simulator : Simulator :=
        { configuration := {}, machine := { memory := ⟨#[0xe7, 0x80, 0, 0, 0x6f, 0, 0, 0]⟩ } }
      (simulator.run 5).1 = ⟨1, 0, .stalled⟩ ∧ (simulator.run 5).2.step.1 = .continued ∧
        (simulator.run 5).2.step.2.machine.pc = 4 ∧
        ((simulator.run 5).2.run 5).1 = ⟨2, 4, .stalled⟩ := by
    decide +kernel
  refine ⟨fun halts => ?_, again⟩
  obtain ⟨stalled, -, -, resumed⟩ := again
  have halted := halts _ 5 (congrArg Summary.reason stalled) 4
  rw [resumed] at halted
  exact absurd halted (by decide)

end Simulator

end Hart
