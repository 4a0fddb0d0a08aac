/-
This file says where the program counter may be. An instruction is executed only if all four bytes
of it lie inside memory. Where they do not, because the program counter is negative, past the end,
or too close to it, the step is a trap that names the program counter and changes nothing.

No instruction that is executed makes an even program counter odd: it is four bytes long, branches
and jumps go by even offsets, and an indirect jump clears the lowest bit of its target. Addresses
wrap around by an even number, so this holds along runs of any length without a look at where in the
address space they lead.
-/

import Hart.Proofs.Loading
import Hart.Proofs.Running
import Hart.Proofs.WellFormed

namespace Hart

/-! ### Even addresses -/

/-- Whether an address is even. -/
def EvenAddress (address : Int64) : Prop :=
  address.toInt % 2 = 0

theorem evenAddress_toInt64_iff (address : UInt64) :
    EvenAddress address.toInt64 ↔ address.toNat % 2 = 0 := by
  have signed : address.toInt64.toInt = (address.toNat : Int).bmod (2 ^ 64) :=
    BitVec.toInt_eq_toNat_bmod address.toBitVec
  unfold EvenAddress
  rw [signed, Int.bmod_def]
  split <;> omega

/-- Wrapping around does not make an even sum odd. -/
theorem EvenAddress.add {first second : Int64} (even : EvenAddress first)
    (even' : EvenAddress second) : EvenAddress (first + second) := by
  unfold EvenAddress at *
  rw [Int64.toInt_add, Int.bmod_def]
  split <;> omega

theorem evenAddress_four : EvenAddress 4 := by
  show (4 : Int64).toInt % 2 = 0
  decide

/-- Clearing the lowest bit rounds down to an even number. -/
theorem toNat_and_not_one (value : UInt64) :
    (value &&& ~~~1).toNat = 2 * (value.toNat / 2) := by
  have bounded := value.toNat_lt
  have mask : (~~~1 : UInt64).toNat = 2 ^ 64 - 2 := by decide
  have half : (value.toNat &&& (2 ^ 64 - 2)) / 2 = value.toNat / 2 := by
    rw [Nat.and_div_two]
    show value.toNat / 2 &&& (2 ^ 63 - 1) = _
    rw [Nat.and_two_pow_sub_one_eq_mod]
    omega
  have lowest : (value.toNat &&& (2 ^ 64 - 2)) % 2 = 0 :=
    (Nat.and_mod_two_pow (n := 1)).trans (Nat.and_zero _)
  rw [UInt64.toNat_and, mask]
  omega

theorem evenAddress_and_not_one (value : UInt64) :
    EvenAddress (value &&& ~~~1).toInt64 := by
  rw [evenAddress_toInt64_iff, toNat_and_not_one]
  exact Nat.mul_mod_right 2 _

/-! ### Where instructions are executed -/

theorem Operation.eq_jal_of_action {operation : Operation}
    (executes : operation.action? = some .jump) : operation = .jal := by
  cases operation <;> cases executes
  rfl

theorem Operation.eq_jalr_of_action {operation : Operation}
    (executes : operation.action? = some .jumpRegister) : operation = .jalr := by
  cases operation <;> cases executes
  rfl

namespace Machine

variable {machine : Machine} {instruction : Instruction} {effect : Effect}

/-- Whether the word at the program counter lies wholly inside memory. -/
def WordInside (machine : Machine) : Prop :=
  0 ≤ machine.pc.toInt ∧ machine.pc.toInt + 4 ≤ machine.memory.size

theorem wordInside_of_fetch (known : machine.fetch.operation ≠ .unknown) :
    machine.WordInside := by
  obtain ⟨present, -, inside⟩ := whole_of_decode known
  have positive : 0 ≤ machine.pc.toInt := Int64.le_iff_toInt_le.mp present.1
  have whole : machine.pc.toInt.toNat + 4 ≤ machine.memory.size := inside
  exact ⟨positive, by omega⟩

/-- Only instructions that are known have an effect. -/
theorem isKnown_of_works (works : machine.effect? instruction = .ok effect) :
    instruction.isKnown = true := by
  obtain ⟨action, executes, -⟩ := machine.exists_action works
  unfold Instruction.isKnown
  generalize instruction.operation = operation at executes
  cases operation with
  | invalid | unknown => cases executes
  | _ => rfl

/-- Where the word does not lie inside memory there is nothing to execute. -/
theorem step_of_outside (outside : ¬machine.WordInside) :
    machine.step =
      (.trapped (.illegalInstruction .unknown machine.pc), machine.clearZero.clearZero) := by
  have unknown : machine.fetch.operation = .unknown := by
    by_contra known
    exact outside (wordInside_of_fetch known)
  have address : machine.fetch.address = machine.pc :=
    (parcel_decode machine.memory machine.pc).address_eq
  have fails : machine.clearZero.effect? machine.fetch =
      .error (.illegalInstruction .unknown machine.pc) := by
    rw [effect?_of_no_action _ (unknown ▸ rfl), unknown, address]
  exact execute_of_error fails

/-! ### Where execution goes on -/

/-- Branches, jumps and indirect jumps lead from even addresses to even addresses. -/
theorem even_target {layout : Layout} {target : Int64}
    (row : instruction.operation.layout? = some layout)
    (fits : layout.Admits instruction.operands) (size : instruction.size = 4)
    (works : machine.effect? instruction = .ok effect) (found : effect.target? = some target)
    (even : EvenAddress machine.pc) : EvenAddress target := by
  obtain ⟨action, executes, kind⟩ := machine.exists_action works
  have transfers : action.kind = .branch ∨ action.kind = .link := by
    rw [← kind, ← effect.isSome_target?_iff, found]
    rfl
  have following : EvenAddress (machine.following instruction) := by
    unfold following
    rw [size]
    exact even.add evenAddress_four
  rw [effect?_of_action _ executes] at works
  generalize instruction.operation = operation at row executes
  cases action with
  | jump =>
    cases Operation.eq_jal_of_action executes
    cases row
    obtain ⟨-, -, multiple, -⟩ := fits
    cases works
    cases found
    exact even.add multiple
  | jumpRegister =>
    cases works
    cases found
    exact evenAddress_and_not_one _
  | branch condition =>
    have branch : ∃ funct3, layout = .branch funct3 := by
      cases operation <;> cases executes <;> exact ⟨_, (Option.some.inj row).symm⟩
    obtain ⟨funct3, rfl⟩ := branch
    obtain ⟨-, -, -, multiple⟩ := fits
    unfold Machine.effect at works
    dsimp only at works
    split at works
    · cases works
      cases found
      exact even.add multiple
    · cases works
      cases found
      exact following
  | _ => rcases transfers with other | other <;> cases other

/-- A step that is completed was inside memory, and an even program counter is even after it. -/
theorem step_of_continued (completed : machine.step.1 = .continued) :
    machine.WordInside ∧ (EvenAddress machine.pc → EvenAddress machine.step.2.pc) := by
  obtain ⟨effect, works⟩ := exists_effect_of_continued completed
  have known := isKnown_of_works works
  have parcel : Parcel machine.memory machine.pc machine.fetch := parcel_decode _ _
  obtain ⟨format, wellFormed⟩ := parcel.exists_wellFormed known
  obtain ⟨layout, row, fits⟩ := parcel.exists_row known
  refine ⟨wordInside_of_fetch fun unknown => ?_, fun even => ?_⟩
  · rw [Instruction.isKnown, unknown] at known
    cases known
  · show EvenAddress (machine.execute machine.fetch).2.pc
    rw [(pc_execute_of_wellFormed wellFormed works).2]
    cases found : effect.target? with
    | none => exact even.add evenAddress_four
    | some target => exact even_target row fits wellFormed.size works found even

end Machine

namespace Simulator

variable {simulator next : Simulator}

/-! ### Runs -/

theorem step_of_continued (stepped : simulator.step = (.continued, next)) :
    simulator.machine.WordInside ∧
      (EvenAddress simulator.machine.pc → EvenAddress next.machine.pc) := by
  have completed : simulator.machine.step.1 = .continued := by
    rw [← outcome_step, stepped]
  have facts := Machine.step_of_continued completed
  rw [← machine_step, stepped] at facts
  exact facts

theorem pc_of_trapped {trap : Trap} (stepped : simulator.step = (.trapped trap, next)) :
    next.machine.pc = simulator.machine.pc := by
  have trapped : simulator.machine.step.1 = .trapped trap := by
    rw [← outcome_step, stepped]
  have after : next.machine = simulator.machine.step.2 := by
    rw [← machine_step, stepped]
  have unchanged := Machine.execute_of_error (Machine.execute_trapped_iff_effect?.mp trapped)
  rw [after]
  exact congrArg (fun step => step.2.pc) unchanged

/-- Executing instructions leads from even addresses to even addresses. -/
theorem even_after {count : Nat} :
    ∀ {simulator last : Simulator}, EvenAddress simulator.machine.pc →
      simulator.after? count = some last → EvenAddress last.machine.pc := by
  induction count with
  | zero =>
    intro simulator last even reached
    cases reached
    exact even
  | succ count inductionHypothesis =>
    intro simulator last even reached
    cases stepped : simulator.step with
    | mk outcome next =>
      cases outcome with
      | trapped trap =>
        rw [after?, stepped] at reached
        cases reached
      | continued =>
        rw [after?_succ stepped] at reached
        exact inductionHypothesis ((step_of_continued stepped).2 even) reached

theorem even_run (budget : Nat) (simulator : Simulator) (even : EvenAddress simulator.machine.pc) :
    EvenAddress (simulator.run budget).2.machine.pc := by
  induction budget, simulator using run_induction with
  | zero simulator => exact even
  | trapped budget simulator trap next stepped =>
    rw [run_of_trapped stepped]
    exact (pc_of_trapped stepped).symm ▸ even
  | stays budget simulator next stepped stays =>
    rw [run_of_stays stepped stays]
    exact (step_of_continued stepped).2 even
  | moves budget simulator next stepped moves inductionHypothesis =>
    rw [run_of_moves stepped moves]
    exact inductionHypothesis ((step_of_continued stepped).2 even)

/-- Whether a run visits even addresses only, from the first to the last, and executes nothing but
words inside memory. -/
def StaysInside (simulator : Simulator) (budget : Nat) : Prop :=
  (∀ number ≤ (simulator.run budget).1.steps, ∃ visited,
      simulator.after? number = some visited ∧ EvenAddress visited.machine.pc ∧
        (number < (simulator.run budget).1.steps → visited.machine.WordInside)) ∧
    EvenAddress (simulator.run budget).2.machine.pc

theorem staysInside_of_even (even : EvenAddress simulator.machine.pc) (budget : Nat) :
    simulator.StaysInside budget := by
  obtain ⟨reached, found, -⟩ := (simulator.run_ends budget).1.exists_reached
  refine ⟨fun number within => ?_, even_run budget simulator even⟩
  obtain before | last := Nat.lt_or_eq_of_le within
  · obtain ⟨visited, next, visits, stepped⟩ := exists_step_of_after? found number before
    exact ⟨visited, visits, even_after even visits, fun _ => (step_of_continued stepped).1⟩
  · subst last
    exact ⟨reached, found, even_after even found, fun before => absurd before (Nat.lt_irrefl _)⟩

/-- The ways in which an image gets into a simulator: as it is, or out of a file. -/
inductive Loads (simulator : Simulator) (image : Image) (started : Simulator) : Prop
  | fromImage (loaded : simulator.loadImage image = (.ok (), started))
  | fromFile {file : ByteArray} (parsed : Image.ofElf file = .ok image)
      (loaded : simulator.load file = (.ok (), started))
  | fromPath {file : ByteArray} {path : String} (parsed : Image.ofElf file = .ok image)
      (loaded : CommandLine.loadFile simulator path (.ok file) = (.ok (), started))

section

variable {image : Image} {started : Simulator} {file : ByteArray} {path : String}

theorem load_of_loadFile
    (loaded : CommandLine.loadFile simulator path (.ok file) = (.ok (), started)) :
    simulator.load file = (.ok (), started) := by
  unfold CommandLine.loadFile at loaded
  dsimp only at loaded
  cases answer : simulator.load file with
  | mk result next =>
    rw [answer] at loaded
    cases result with
    | ok _ =>
      cases loaded
      rfl
    | error error => cases loaded

theorem started_of_load (parsed : Image.ofElf file = .ok image)
    (loaded : simulator.load file = (.ok (), started)) : started = simulator.started image := by
  obtain ⟨other, parsed', fits⟩ := load_eq_ok_iff.mp (congrArg Prod.fst loaded)
  cases parsed.symm.trans parsed'
  exact congrArg Prod.snd (loaded.symm.trans (load_of_fits parsed fits))

theorem started_of_loads (loads : simulator.Loads image started) :
    started = simulator.started image := by
  cases loads with
  | fromImage loaded =>
    obtain loaded' | ⟨error, failed⟩ := simulator.loadImage_cases image
    · exact congrArg Prod.snd (loaded.symm.trans loaded')
    · cases loaded.symm.trans failed
  | fromFile parsed loaded => exact started_of_load parsed loaded
  | fromPath parsed loaded => exact started_of_load parsed (load_of_loadFile loaded)

end

/-- Executed code lies inside memory, and the program counter stays even. A step that is completed
started with a program counter whose word lies wholly inside memory, and leaves an even program
counter even. So a run of any length from an even program counter, such as the entry of a program
that was loaded, visits even addresses only and executes nothing that is not wholly in memory. Where
the word does not lie inside memory, because the program counter is negative, past the end, or has
fewer than four bytes left, the step is a trap with that address, and the program counter, the
registers above zero, memory, the sink and the count of executed instructions stay as they are. -/
theorem executes_inside_memory :
    (∀ simulator next : Simulator, simulator.step = (.continued, next) →
        0 ≤ simulator.machine.pc.toInt ∧
          simulator.machine.pc.toInt + 4 ≤ simulator.machine.memory.size ∧
          (EvenAddress simulator.machine.pc → EvenAddress next.machine.pc)) ∧
      (∀ simulator : Simulator, EvenAddress simulator.machine.pc →
        ∀ budget, simulator.StaysInside budget) ∧
      (∀ (simulator started : Simulator) (image : Image), simulator.Loads image started →
        image.entry.toNat % 2 = 0 → ∀ budget, started.StaysInside budget) ∧
      ∀ simulator : Simulator,
        (simulator.machine.pc.toInt < 0 ∨
          simulator.machine.memory.size ≤ simulator.machine.pc.toInt ∨
          simulator.machine.memory.size < simulator.machine.pc.toInt + 4) →
        ∃ next, simulator.step =
            (.trapped (.illegalInstruction .unknown simulator.machine.pc), next) ∧
          next.machine.pc = simulator.machine.pc ∧
          (∀ index, index ≠ 0 →
            next.machine.registers.read index = simulator.machine.registers.read index) ∧
          next.machine.memory = simulator.machine.memory ∧
          next.machine.sink = simulator.machine.sink ∧ next.steps = simulator.steps := by
  refine ⟨fun simulator next stepped => ?_, fun simulator even budget => ?_,
    fun simulator started image loads even budget => ?_, fun simulator outside => ?_⟩
  · obtain ⟨⟨positive, whole⟩, keeps⟩ := step_of_continued stepped
    exact ⟨positive, whole, keeps⟩
  · exact staysInside_of_even even budget
  · refine staysInside_of_even ?_ budget
    rw [started_of_loads loads]
    exact (evenAddress_toInt64_iff image.entry).mpr even
  · have trapped := simulator.machine.step_of_outside fun inside => by
      obtain ⟨positive, whole⟩ := inside
      omega
    refine ⟨{ simulator with machine := simulator.machine.clearZero.clearZero }, ?_, rfl,
      fun index positive => ?_, rfl, rfl, rfl⟩
    · rw [step, trapped]
    · show simulator.machine.registers.clearZero.clearZero.read index = _
      rw [Registers.read_clearZero, if_neg (Ne.symm positive), Registers.read_clearZero,
        if_neg (Ne.symm positive)]

/-- A program of one jump backwards, from the first byte of memory to the fourth before it. -/
theorem executes_inside_memory_backwards :
    let image : Image := { entry := 0, address := 0, code := ⟨#[0x6f, 0xf0, 0xdf, 0xff]⟩ }
    let started := ((Simulator.new { memorySize := 6 }).loadImage image).2
    (Simulator.new { memorySize := 6 }).Loads image started ∧ started.StaysInside 5 ∧
      (started.run 5).1 = ⟨1, 0xfffffffffffffffc, .trapped (.illegalInstruction .unknown (-4))⟩ ∧
      ∃ next, (started.run 5).2.step = (.trapped (.illegalInstruction .unknown (-4)), next) ∧
        next.machine.pc = -4 := by
  intro image started
  have loaded : (Simulator.new { memorySize := 6 }).loadImage image = (.ok (), started) := by
    have succeeded : ((Simulator.new { memorySize := 6 }).loadImage image).1 = .ok () := by
      decide +kernel
    exact Prod.ext succeeded rfl
  have reached : (started.run 5).2.machine.pc = -4 := by decide +kernel
  obtain ⟨-, -, programs, outside⟩ := executes_inside_memory
  obtain ⟨next, trapped, kept, -⟩ := outside (started.run 5).2 (.inl (by rw [reached]; decide))
  rw [reached] at trapped kept
  exact ⟨.fromImage loaded, programs _ started image (.fromImage loaded) rfl 5,
    by decide +kernel, next, trapped, kept⟩

end Simulator

end Hart
