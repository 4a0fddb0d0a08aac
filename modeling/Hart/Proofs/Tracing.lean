/-
This file proves that watching a program does not change it. A traced run goes through the program
in slices of one instruction and adds up what they report; the plain run goes through it at once.
They end in the same state with the same summary, so a program that is run from the command line
writes the same output and is reported as the same failure, whether its registers are recorded or
not.
-/

import Hart.CommandLine.Report
import Hart.Proofs.Running

namespace Hart

namespace CommandLine

open Simulator (run_add)

/-! ### The two loops -/

/-- A traced run that has executed something already ends like a plain run over what is left of the
limit. -/
theorem tracedFrom_eq (threshold : Level) (limit : Nat) (journal : Journal) (executed : Nat)
    (simulator : Simulator) :
    (tracedFrom threshold limit journal executed simulator).1 =
        (simulator.run (limit - executed)).1.precededBy executed ∧
      (tracedFrom threshold limit journal executed simulator).2.1 =
        (simulator.run (limit - executed)).2 := by
  fun_induction tracedFrom threshold limit journal executed simulator with
  | case1 journal executed simulator below _ slice next sliced _ ended counted
      inductionHypothesis =>
    -- The plain run is split after the slice, which has executed one instruction.
    have parts : limit - executed = 1 + (limit - (executed + slice.steps)) := by omega
    rw [parts, run_add, sliced, if_pos ended, Summary.precededBy_precededBy]
    exact inductionHypothesis
  | case2 journal executed simulator below _ slice next sliced _ ended =>
    have parts : limit - executed = 1 + (limit - (executed + 1)) := by omega
    rw [parts, run_add, sliced, if_neg ended]
    exact ⟨rfl, rfl⟩
  | case3 journal executed simulator exhausted =>
    have nothing : limit - executed = 0 := Nat.sub_eq_zero_of_le (Nat.le_of_not_lt exhausted)
    rw [nothing]
    exact ⟨rfl, rfl⟩

theorem runTraced_eq (threshold : Level) (journal : Journal) (simulator : Simulator) :
    (runTraced threshold journal simulator).1 = simulator.runToCompletion.1 ∧
      (runTraced threshold journal simulator).2.1 = simulator.runToCompletion.2 := by
  have same := tracedFrom_eq threshold simulator.configuration.maxSteps journal 0 simulator
  rw [Summary.precededBy_zero] at same
  exact same

theorem runRecorded_eq (threshold : Level) (options : RunOptions) (journal : Journal)
    (simulator : Simulator) :
    (runRecorded threshold options journal simulator).1 = simulator.runToCompletion.1 ∧
      (runRecorded threshold options journal simulator).2.1 = simulator.runToCompletion.2 := by
  unfold runRecorded
  by_cases traced : options.traceRegisters
  · rw [if_pos traced]
    exact runTraced_eq threshold journal simulator
  · rw [if_neg traced]
    exact ⟨rfl, rfl⟩

/-! ### Reports -/

/-- What a command reports as a failure once its program has run. -/
def failureOf (summary : Summary) : Option Failure :=
  match summary.reason with
  | .trapped trap => some (.trapped summary.steps summary.pc trap)
  | _ => none

theorem failureOf_ne_none_iff (summary : Summary) :
    failureOf summary ≠ none ↔ ∃ trap, summary.reason = .trapped trap := by
  obtain ⟨steps, pc, reason⟩ := summary
  cases reason with
  | trapped trap => exact ⟨fun _ => ⟨trap, rfl⟩, fun _ => nofun⟩
  | _ => exact ⟨fun failed => absurd rfl failed, nofun⟩

section

variable (threshold : Level) (options : RunOptions) {file : Except ReadError ByteArray}
  {failure : Failure} {simulator loaded : Simulator}

theorem runReport_of_not_loaded
    (failed :
      loadFile (.new options.configuration) options.path file = (.error failure, simulator)) :
    (runReport threshold options file).failure = some failure ∧
      (runReport threshold options file).output = .bytes [] := by
  unfold runReport
  rw [failed]
  exact ⟨rfl, rfl⟩

/-- A report on a loaded program depends on the plain run alone. -/
theorem runReport_of_loaded
    (succeeded : loadFile (.new options.configuration) options.path file = (.ok (), loaded)) :
    (runReport threshold options file).failure =
        failureOf loaded.attachSink.runToCompletion.1 ∧
      (runReport threshold options file).output =
        .bytes (outputBytes loaded.attachSink.runToCompletion.2) := by
  unfold runReport
  rw [succeeded]
  dsimp only
  generalize (noteFile threshold file loaded.attachSink.machine.capacity).note threshold .info
    ("running " ++ options.path ++ " from pc " ++ Text.hexLiteral loaded.attachSink.pc.toNat) =
      journal
  obtain ⟨summaries, simulators⟩ := runRecorded_eq threshold options journal loaded.attachSink
  rw [← summaries, ← simulators]
  cases runRecorded threshold options journal loaded.attachSink with
  | mk summary rest =>
    obtain ⟨steps, pc, reason⟩ := summary
    cases reason with
    | _ => exact ⟨rfl, rfl⟩

end

/-- The simulator on which a command runs the program in a file: a new one, listened to from the
moment the program is loaded. -/
def prepared (options : RunOptions) (contents : ByteArray) : Simulator :=
  ((Simulator.new options.configuration).load contents).2.attachSink

/-- A command that runs a program fails where the file cannot be read, where the program cannot be
loaded, and where the plain run of the loaded program traps. -/
theorem runReport_failure_iff (threshold : Level) (options : RunOptions)
    (file : Except ReadError ByteArray) :
    (runReport threshold options file).failure ≠ none ↔
      (∃ error, file = .error error) ∨
      (∃ contents error, file = .ok contents ∧
        ((Simulator.new options.configuration).load contents).1 = .error error) ∨
      ∃ contents trap, file = .ok contents ∧
        ((Simulator.new options.configuration).load contents).1 = .ok () ∧
        (prepared options contents).runToCompletion.1.reason = .trapped trap := by
  cases file with
  | error error =>
    have refused : loadFile (.new options.configuration) options.path (.error error) =
        (.error (.unreadable options.path error), .new options.configuration) := rfl
    obtain ⟨failed, -⟩ := runReport_of_not_loaded threshold options refused
    rw [failed]
    exact ⟨fun _ => Or.inl ⟨error, rfl⟩, fun _ => nofun⟩
  | ok contents =>
    cases loads : (Simulator.new options.configuration).load contents with
    | mk result loaded =>
      cases result with
      | error error =>
        have refused : loadFile (.new options.configuration) options.path (.ok contents) =
            (.error (.unloadable options.path error), loaded) := by
          unfold loadFile
          dsimp only
          rw [loads]
        obtain ⟨failed, -⟩ := runReport_of_not_loaded threshold options refused
        rw [failed]
        exact ⟨fun _ => Or.inr (Or.inl ⟨contents, error, rfl, by rw [loads]⟩), fun _ => nofun⟩
      | ok _ =>
        have accepted : loadFile (.new options.configuration) options.path (.ok contents) =
            (.ok (), loaded) := by
          unfold loadFile
          dsimp only
          rw [loads]
        have same : prepared options contents = loaded.attachSink := by
          unfold prepared
          rw [loads]
        obtain ⟨failure, -⟩ := runReport_of_loaded threshold options accepted
        rw [failure, ← same, failureOf_ne_none_iff]
        constructor
        · rintro ⟨trap, trapped⟩
          exact Or.inr (Or.inr ⟨contents, trap, rfl, by rw [loads], trapped⟩)
        · rintro (⟨error, impossible⟩ | ⟨other, error, same, impossible⟩ |
            ⟨other, trap, same, -, trapped⟩)
          · cases impossible
          · cases same
            rw [loads] at impossible
            cases impossible
          · cases same
            exact ⟨trap, trapped⟩

/-- A traced run and a plain run with the same budget have the same summary and leave the same
simulator, its count of executed instructions and what its sink received included. So a program that
is run from the command line writes the same bytes and is reported as the same failure, if any,
whether its registers are recorded or not; and either way it is reported as a failure exactly if its
file cannot be read, cannot be loaded, or holds a program that traps. -/
theorem runTraced_eq_runToCompletion (threshold : Level) (journal : Journal)
    (simulator : Simulator) (options : RunOptions) (file : Except ReadError ByteArray) :
    ((runTraced threshold journal simulator).1 = simulator.runToCompletion.1 ∧
        (runTraced threshold journal simulator).2.1 = simulator.runToCompletion.2) ∧
      (let traced := runReport threshold { options with traceRegisters := true } file
        let plain := runReport threshold { options with traceRegisters := false } file
        traced.output = plain.output ∧ traced.failure = plain.failure) ∧
      ((runReport threshold options file).failure ≠ none ↔
        (∃ error, file = .error error) ∨
        (∃ contents error, file = .ok contents ∧
          ((Simulator.new options.configuration).load contents).1 = .error error) ∨
        ∃ contents trap, file = .ok contents ∧
          ((Simulator.new options.configuration).load contents).1 = .ok () ∧
          (prepared options contents).runToCompletion.1.reason = .trapped trap) := by
  refine ⟨runTraced_eq threshold journal simulator, ?_,
    runReport_failure_iff threshold options file⟩
  cases loads : loadFile (.new options.configuration) options.path file with
  | mk result loaded =>
    cases result with
    | error failure =>
      obtain ⟨failed, silent⟩ := runReport_of_not_loaded threshold
        { options with traceRegisters := true } loads
      obtain ⟨failed', silent'⟩ := runReport_of_not_loaded threshold
        { options with traceRegisters := false } loads
      exact ⟨silent.trans silent'.symm, failed.trans failed'.symm⟩
    | ok _ =>
      obtain ⟨failure, output⟩ := runReport_of_loaded threshold
        { options with traceRegisters := true } loads
      obtain ⟨failure', output'⟩ := runReport_of_loaded threshold
        { options with traceRegisters := false } loads
      exact ⟨output.trans output'.symm, failure.trans failure'.symm⟩

/-- An executable file with a program that writes one letter to the console and then jumps to where
it is. -/
def letterFile : ByteArray := ⟨#[
  0x7f, 0x45, 0x4c, 0x46, 0x2, 0x1, 0x1, 0, 0, 0, 0, 0, 0, 0, 0, 0,
  0x2, 0, 0xf3, 0, 0x1, 0, 0, 0, 0x10, 0, 0, 0, 0, 0, 0, 0,
  0, 0, 0, 0, 0, 0, 0, 0, 0x58, 0, 0, 0, 0, 0, 0, 0,
  0, 0, 0, 0, 0x40, 0, 0, 0, 0, 0, 0x40, 0, 0x2, 0, 0x1, 0,
  0xb7, 0x2, 0x1, 0, 0x13, 0x3, 0x10, 0x4, 0x23, 0x80, 0x62, 0, 0x6f, 0, 0, 0,
  0x2e, 0x74, 0x65, 0x78, 0x74, 0, 0, 0, 0, 0, 0, 0, 0x1, 0, 0, 0,
  0, 0, 0, 0, 0, 0, 0, 0, 0x10, 0, 0, 0, 0, 0, 0, 0,
  0x40, 0, 0, 0, 0, 0, 0, 0, 0x10, 0, 0, 0, 0, 0, 0, 0,
  0, 0, 0, 0, 0, 0, 0, 0, 0, 0, 0, 0, 0, 0, 0, 0,
  0, 0, 0, 0, 0, 0, 0, 0, 0x5, 0, 0, 0, 0x3, 0, 0, 0,
  0, 0, 0, 0, 0, 0, 0, 0, 0, 0, 0, 0, 0, 0, 0, 0,
  0x50, 0, 0, 0, 0, 0, 0, 0, 0x6, 0, 0, 0, 0, 0, 0, 0,
  0, 0, 0, 0, 0, 0, 0, 0, 0, 0, 0, 0, 0, 0, 0, 0,
  0, 0, 0, 0, 0, 0, 0, 0]⟩

/-- Options for a small memory and for more steps than the program takes. -/
def letterOptions : RunOptions where
  path := "letter"
  configuration := { memorySize := 32, maxSteps := 9 }

/-- The letter is written once, whether the registers are recorded or not, and either way four
instructions are executed and nothing fails. -/
theorem runTraced_eq_runToCompletion_letterFile :
    (runTraced .warn #[] (prepared letterOptions letterFile)).1 = ⟨4, 28, .stalled⟩ ∧
      ((runReport .warn { letterOptions with traceRegisters := true } (.ok letterFile)).output =
          .bytes [0x41] ∧
        (runReport .warn { letterOptions with traceRegisters := true } (.ok letterFile)).failure =
          none) ∧
      (runReport .warn { letterOptions with traceRegisters := false } (.ok letterFile)).output =
          .bytes [0x41] ∧
        (runReport .warn { letterOptions with traceRegisters := false } (.ok letterFile)).failure =
          none := by
  obtain ⟨⟨summary, -⟩, ⟨output, failure⟩, -⟩ := runTraced_eq_runToCompletion .warn #[]
    (prepared letterOptions letterFile) letterOptions (.ok letterFile)
  have plainSummary :
      (prepared letterOptions letterFile).runToCompletion.1 = ⟨4, 28, .stalled⟩ := by
    decide +kernel
  have plainOutput :
      (runReport .warn { letterOptions with traceRegisters := false } (.ok letterFile)).output =
        .bytes [0x41] := by
    decide +kernel
  have plainFailure :
      (runReport .warn { letterOptions with traceRegisters := false } (.ok letterFile)).failure =
        none := by
    decide +kernel
  exact ⟨summary.trans plainSummary,
    ⟨output.trans plainOutput, failure.trans plainFailure⟩, plainOutput, plainFailure⟩

end CommandLine

end Hart
