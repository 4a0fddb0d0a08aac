/-
This file proves that register zero is hard-wired. A host may put any value there, as it may into
every other register, but a step clears it before it reads a register and clears it again after it
has written one. So an instruction, be it decoded or built by hand, neither sees what the host put
there nor leaves anything behind, whether it is executed or not.

What is true of a step is true of a run that takes one. A simulator whose host leaves register zero
alone never shows anything but zero in it.
-/

import Hart.Proofs.Loading
import Hart.Proofs.View

namespace Hart

namespace Machine

/-! ### One step -/

/-- Whether two machines differ at most in register zero. -/
structure AgreeAboveZero (first second : Machine) : Prop where
  pc : first.pc = second.pc
  registers : ∀ index, index ≠ 0 → first.registers.read index = second.registers.read index
  memory : first.memory = second.memory
  sink : first.sink = second.sink

theorem agreeAboveZero_pokeRegister (machine : Machine) (value : UInt64) :
    (machine.pokeRegister 0 value).AgreeAboveZero machine where
  pc := rfl
  registers _ positive := (Registers.read_put _ _ _ _).trans (if_neg (Ne.symm positive))
  memory := rfl
  sink := rfl

theorem agreeAboveZero_clearZero (machine : Machine) :
    machine.clearZero.AgreeAboveZero machine where
  pc := rfl
  registers _ positive := (Registers.read_clearZero _ _).trans (if_neg (Ne.symm positive))
  memory := rfl
  sink := rfl

variable {first second : Machine}

theorem AgreeAboveZero.trans {third : Machine} (left : first.AgreeAboveZero second)
    (right : second.AgreeAboveZero third) : first.AgreeAboveZero third where
  pc := left.pc.trans right.pc
  registers index positive :=
    (left.registers index positive).trans (right.registers index positive)
  memory := left.memory.trans right.memory
  sink := left.sink.trans right.sink

/-- Clearing register zero takes away the only difference. -/
theorem AgreeAboveZero.clearZero_eq (agree : first.AgreeAboveZero second) :
    first.clearZero = second.clearZero := by
  have registers : first.registers.clearZero = second.registers.clearZero := by
    refine Registers.eq_of_read fun index => ?_
    rw [Registers.read_clearZero, Registers.read_clearZero]
    by_cases zero : 0 = index
    · rw [if_pos zero, if_pos zero]
    · rw [if_neg zero, if_neg zero, agree.registers index (Ne.symm zero)]
  obtain ⟨pc, -, memory, sink⟩ := agree
  unfold clearZero
  rw [pc, registers, memory, sink]

/-- A step starts from the machine with register zero cleared. -/
theorem AgreeAboveZero.execute_eq (agree : first.AgreeAboveZero second)
    (instruction : Instruction) : first.execute instruction = second.execute instruction := by
  unfold execute
  rw [agree.clearZero_eq]

theorem AgreeAboveZero.step_eq (agree : first.AgreeAboveZero second) :
    first.step = second.step := by
  have fetched : first.fetch = second.fetch := by
    unfold fetch
    rw [agree.pc, agree.memory]
  unfold step
  rw [fetched, agree.execute_eq]

/-! ### Steps in a row -/

/-- How a machine ends each of some instructions that it is given in turn, and the state that each
of them leaves. One that is not executed does not keep the next from being given. -/
def executeAll (machine : Machine) : List Instruction → List (Outcome × Machine)
  | [] => []
  | instruction :: rest =>
    machine.execute instruction :: (machine.execute instruction).2.executeAll rest

theorem read_zero_of_mem_executeAll (instructions : List Instruction) :
    ∀ machine : Machine, ∀ answer ∈ machine.executeAll instructions,
      answer.2.registers.read 0 = 0 := by
  induction instructions with
  | nil => exact fun _ _ member => nomatch member
  | cons instruction rest inductionHypothesis =>
    intro machine answer member
    obtain rfl | later := List.mem_cons.mp member
    · exact read_zero_execute machine instruction
    · exact inductionHypothesis _ answer later

end Machine

namespace Simulator

variable (simulator : Simulator)

/-! ### Runs -/

theorem register?_zero :
    simulator.register? 0 = some (simulator.machine.registers.read 0) :=
  Vector.getElem?_eq_getElem (by decide)

theorem step_poke_zero (value : UInt64) :
    (simulator.serve (.pokeRegister 0 value)).step = simulator.step := by
  have same : (simulator.serve (.pokeRegister 0 value)).machine.step = simulator.machine.step :=
    (simulator.machine.agreeAboveZero_pokeRegister value).step_eq
  unfold step
  rw [same]
  rfl

/-- A run that takes a step does not show what register zero held before. -/
theorem run_poke_zero (value : UInt64) (budget : Nat) :
    (simulator.serve (.pokeRegister 0 value)).run (budget + 1) = simulator.run (budget + 1) := by
  have same := simulator.step_poke_zero value
  cases stepped : simulator.step with
  | mk outcome next =>
    rw [stepped] at same
    cases outcome with
    | trapped trap => rw [run_of_trapped stepped, run_of_trapped same]
    | continued =>
      by_cases stays : next.machine.pc = simulator.machine.pc
      · rw [run_of_stays stepped stays, run_of_stays same stays]
      · rw [run_of_moves stepped stays, run_of_moves same stays]

theorem read_zero_step : simulator.step.2.machine.registers.read 0 = 0 := by
  rw [machine_step]
  exact simulator.machine.read_zero_execute simulator.machine.fetch

theorem read_zero_of_step {simulator next : Simulator} {outcome : Outcome}
    (stepped : simulator.step = (outcome, next)) : next.machine.registers.read 0 = 0 := by
  have cleared := simulator.read_zero_step
  rw [stepped] at cleared
  exact cleared

theorem read_zero_run (budget : Nat) (simulator : Simulator)
    (held : simulator.machine.registers.read 0 = 0) :
    (simulator.run budget).2.machine.registers.read 0 = 0 := by
  induction budget, simulator using run_induction with
  | zero simulator => exact held
  | trapped budget simulator trap next stepped =>
    rw [run_of_trapped stepped]
    exact read_zero_of_step stepped
  | stays budget simulator next stepped stays =>
    rw [run_of_stays stepped stays]
    exact read_zero_of_step stepped
  | moves budget simulator next stepped moves inductionHypothesis =>
    rw [run_of_moves stepped moves]
    exact inductionHypothesis (read_zero_of_step stepped)

/-! ### Histories -/

theorem read_zero_started (image : Image) :
    (simulator.started image).machine.registers.read 0 = 0 :=
  read_zero 0

end Simulator

/-- Whether a request is not one to put something into register zero. -/
def Request.SparesZero : Request → Prop
  | .pokeRegister index _ => index.val ≠ 0
  | _ => True

namespace Simulator

variable {simulator : Simulator}

theorem read_zero_serve {request : Request} (spares : request.SparesZero)
    (held : simulator.machine.registers.read 0 = 0) :
    (simulator.serve request).machine.registers.read 0 = 0 := by
  cases request with
  | load file =>
    show (simulator.load file).2.machine.registers.read 0 = 0
    obtain ⟨image, loaded⟩ | ⟨error, failed⟩ := simulator.load_cases file
    · rw [loaded]
      exact simulator.read_zero_started image
    · rw [failed]
      exact held
  | loadFile path file =>
    show (CommandLine.loadFile simulator path file).2.machine.registers.read 0 = 0
    obtain ⟨image, loaded⟩ | ⟨failure, failed⟩ := simulator.loadFile_cases path file
    · rw [loaded]
      exact simulator.read_zero_started image
    · rw [failed]
      exact held
  | loadImage image =>
    show (simulator.loadImage image).2.machine.registers.read 0 = 0
    obtain loaded | ⟨error, failed⟩ := simulator.loadImage_cases image
    · rw [loaded]
      exact simulator.read_zero_started image
    · rw [failed]
      exact held
  | reset => exact read_zero 0
  | step => exact simulator.read_zero_step
  | run budget => exact read_zero_run budget simulator held
  | runToCompletion => exact read_zero_run simulator.configuration.maxSteps simulator held
  | pokeRegister index value =>
    have other : index ≠ 0 := fun zero => spares (congrArg Fin.val zero)
    exact (Registers.read_put _ _ _ _).trans ((if_neg other).trans held)
  | attachSink | pokeMemory _ _ | pokePc _ => exact held

theorem read_zero_serveAll (history : List Request)
    (spares : ∀ request ∈ history, request.SparesZero) :
    ∀ simulator : Simulator, simulator.machine.registers.read 0 = 0 →
      (simulator.serveAll history).machine.registers.read 0 = 0 := by
  induction history with
  | nil => exact fun _ held => held
  | cons request history inductionHypothesis =>
    intro simulator held
    exact inductionHypothesis (fun other member => spares other (List.mem_cons_of_mem _ member))
      (simulator.serve request) (read_zero_serve (spares request List.mem_cons_self) held)

/-- Register zero is hard-wired. Whatever a host put there and whichever instructions a machine is
given, it holds zero after each of them, executed or not. What it held before cannot be told: two
machines that differ at most there end every instruction alike, in the same state and with the same
deliveries, and so does every run that takes a step. Hence it is zero in every simulator whose host
never puts anything else there, after any history of loads, resets, steps and runs. -/
theorem register_zero_hardwired :
    (∀ (machine : Machine) (instructions : List Instruction),
        ∀ answer ∈ machine.executeAll instructions, answer.2.registers.read 0 = 0) ∧
      (∀ first second : Machine, first.AgreeAboveZero second →
        (∀ instruction, first.execute instruction = second.execute instruction) ∧
          first.step = second.step) ∧
      (∀ (simulator : Simulator) (value : UInt64) (budget : Nat),
        (simulator.serve (.pokeRegister 0 value)).run (budget + 1) = simulator.run (budget + 1)) ∧
      (∀ (configuration : Configuration) (history : List Request),
        (∀ request ∈ history, request.SparesZero) →
          ((Simulator.new configuration).serveAll history).register? 0 = some 0) := by
  refine ⟨fun machine instructions => Machine.read_zero_of_mem_executeAll instructions machine,
    fun first second agree => ⟨agree.execute_eq, agree.step_eq⟩,
    fun simulator value budget => simulator.run_poke_zero value budget,
    fun configuration history spares => ?_⟩
  have held := read_zero_serveAll history spares (Simulator.new configuration) (read_zero 0)
  rw [register?_zero, held]

/-- An addition of five to register zero, whose host has put seven there. -/
theorem register_zero_hardwired_poked :
    let plain : Machine := { memory := ⟨#[]⟩ }
    let poked : Machine := plain.pokeRegister 0 7
    let instruction : Instruction := { operation := .addi, size := 4, operands := ⟨1, 0, 5⟩ }
    poked.registers.read 0 = 7 ∧ poked.AgreeAboveZero plain ∧
      poked.execute instruction = plain.execute instruction ∧
      (poked.execute instruction).2.registers.read 1 = 5 ∧
      (∀ request ∈ [Request.pokeRegister 5 7, .step], request.SparesZero) ∧
      ((Simulator.new {}).serveAll [.pokeRegister 5 7, .step]).register? 0 = some 0 := by
  intro plain poked instruction
  have agree : poked.AgreeAboveZero plain := plain.agreeAboveZero_pokeRegister 7
  have spares : ∀ request ∈ [Request.pokeRegister 5 7, .step], request.SparesZero := by
    intro request member
    obtain rfl | last := List.mem_cons.mp member
    · exact (by decide : (5 : RegisterIndex).val ≠ 0)
    · cases List.mem_singleton.mp last
      exact trivial
  exact ⟨by decide, agree, (register_zero_hardwired.2.1 poked plain agree).1 instruction,
    by decide, spares, register_zero_hardwired.2.2.2 {} _ spares⟩

end Simulator

end Hart
