/-
This file proves that the count of executed instructions is exact. The simulator keeps one count, a
run keeps another, and a host can keep a third by adding up what it is told. They are kept in
different places, and after any history they agree: the simulator counts the instructions that were
executed since it last started over, be it by a reset or by a load that succeeded. What is refused
counts nothing, and a host that reaches into the machine does not touch the count, even if it leaves
a memory of another size there.

A host reads the count as a word of 64 bits. That word is the count for as long as fewer
instructions were executed in all than such words can tell apart.
-/

import Hart.Proofs.Loading
import Hart.Simulator.Executed
import Mathlib

namespace Hart

/-! ### Acts and what comes of them -/

/-- What a host may do to a simulator. -/
inductive Act where
  /-- It asks for something. -/
  | ask (request : Request)
  /-- It reaches into the machine and leaves another one in its place, which may have another sink,
  or a memory of another size. -/
  | leave (machine : Machine)

/-- What a host is told. -/
inductive Reply where
  /-- What was done cannot fail, and nothing is said about it. -/
  | done
  /-- The simulator started over: it was reset, or a load succeeded. -/
  | restarted
  /-- A load failed. -/
  | failed
  | outcome (outcome : Outcome)
  | summary (summary : Summary)

namespace Reply

/-- What a host is told about a load. -/
def ofLoad {Error : Type} : Except Error Unit → Reply
  | .ok _ => .restarted
  | .error _ => .failed

/-- Whether the simulator started over. -/
def restarts : Reply → Bool
  | .restarted => true
  | _ => false

/-- How many instructions the host is told were executed. -/
def reported : Reply → Nat
  | .outcome .continued => 1
  | .summary given => given.steps
  | _ => 0

end Reply

/-- What comes of an act: what the host is told, and the instructions that were executed meanwhile,
in order. -/
structure Turn where
  reply : Reply
  executed : List Instruction := []

/-- The turns since the simulator last started over. -/
def sinceRestart (turns : List Turn) : List Turn :=
  turns.rtakeWhile fun turn => !turn.reply.restarts

/-- The instructions that were executed in some turns. -/
def executedIn (turns : List Turn) : List Instruction :=
  turns.flatMap Turn.executed

/-- How many instructions the host is told were executed in some turns. -/
def reportedIn (turns : List Turn) : Nat :=
  (turns.map fun turn => turn.reply.reported).sum

/-- The word that a host reads as the count, after a turn. -/
def Turn.tick (count : UInt64) (turn : Turn) : UInt64 :=
  if turn.reply.restarts then 0 else turn.executed.foldl (fun count _ => count + 1) count

/-- The word that a host reads as the count, after some turns. -/
def counter (turns : List Turn) : UInt64 :=
  turns.foldl Turn.tick 0

/-- What the host was told adds up to what was executed. -/
theorem reportedIn_eq (turns : List Turn)
    (reported : ∀ turn ∈ turns, turn.executed.length = turn.reply.reported) :
    reportedIn turns = (executedIn turns).length := by
  rw [reportedIn, executedIn, List.length_flatMap]
  exact congrArg List.sum (List.map_congr_left fun turn member => (reported turn member).symm)

/-- No more is counted since the last start than was executed in all. -/
theorem length_sinceRestart_le (turns : List Turn) :
    (executedIn (sinceRestart turns)).length ≤ (executedIn turns).length := by
  obtain ⟨before, split⟩ := List.rtakeWhile_suffix (fun turn : Turn => !turn.reply.restarts) turns
  have whole : executedIn turns = executedIn before ++ executedIn (sinceRestart turns) := by
    rw [executedIn, executedIn, executedIn, ← List.flatMap_append]
    exact congrArg (List.flatMap Turn.executed) split.symm
  rw [whole, List.length_append]
  exact Nat.le_add_left _ _

/-- Counting up by ones goes as far as there is something to count. -/
theorem foldl_tick (executed : List Instruction) :
    ∀ count : UInt64, executed.foldl (fun count _ => count + 1) count =
      count + UInt64.ofNat executed.length := by
  induction executed with
  | nil => exact fun count => (UInt64.add_zero count).symm
  | cons instruction executed inductionHypothesis =>
    intro count
    rw [List.foldl_cons, inductionHypothesis, List.length_cons, UInt64.ofNat_add, UInt64.add_assoc,
      UInt64.add_comm 1]
    rfl

namespace Simulator

/-- The simulator after an act. -/
def act (simulator : Simulator) : Act → Simulator
  | .ask request => simulator.serve request
  | .leave machine => { simulator with machine }

/-- The simulator after acts in turn. -/
def actAll (simulator : Simulator) (history : List Act) : Simulator :=
  history.foldl act simulator

/-- What comes of an act. -/
def turn (simulator : Simulator) : Act → Turn
  | .ask (.load file) => { reply := .ofLoad (simulator.load file).1 }
  | .ask (.loadFile path file) => { reply := .ofLoad (CommandLine.loadFile simulator path file).1 }
  | .ask (.loadImage image) => { reply := .ofLoad (simulator.loadImage image).1 }
  | .ask .reset => { reply := .restarted }
  | .ask .step =>
    match simulator.step.1 with
    | .continued => { reply := .outcome .continued, executed := [simulator.current] }
    | .trapped trap => { reply := .outcome (.trapped trap) }
  | .ask (.run budget) =>
    { reply := .summary (simulator.run budget).1, executed := (simulator.executed budget).toList }
  | .ask .runToCompletion =>
    { reply := .summary simulator.runToCompletion.1
      executed := (simulator.executed simulator.configuration.maxSteps).toList }
  | .ask _ | .leave _ => { reply := .done }

/-- What comes of acts in turn. -/
def turns (simulator : Simulator) : List Act → List Turn
  | [] => []
  | act :: history => simulator.turn act :: (simulator.act act).turns history

/-- Whether an act is one that counts nothing: a load that fails, a step that is refused, a run that
may not execute anything, and whatever only touches the machine. -/
def Uncounted (simulator : Simulator) : Act → Prop
  | .ask (.load file) => (simulator.load file).1 ≠ .ok ()
  | .ask (.loadFile path file) => (CommandLine.loadFile simulator path file).1 ≠ .ok ()
  | .ask (.loadImage image) => (simulator.loadImage image).1 ≠ .ok ()
  | .ask .reset => False
  | .ask .step => simulator.step.1 ≠ .continued
  | .ask (.run budget) => budget = 0
  | .ask .runToCompletion => simulator.configuration.maxSteps = 0
  | .ask _ | .leave _ => True

/-! ### The count of a run -/

variable {simulator next : Simulator}

theorem steps_of_continued (stepped : simulator.step = (.continued, next)) :
    next.steps = simulator.steps + 1 := by
  unfold step at stepped
  cases executed : simulator.machine.step with
  | mk outcome machine =>
    rw [executed] at stepped
    cases outcome with
    | continued =>
      cases stepped
      rfl
    | trapped trap => cases stepped

theorem steps_of_trapped {trap : Trap} (stepped : simulator.step = (.trapped trap, next)) :
    next.steps = simulator.steps := by
  unfold step at stepped
  cases executed : simulator.machine.step with
  | mk outcome machine =>
    rw [executed] at stepped
    cases outcome with
    | continued => cases stepped
    | trapped trap =>
      cases stepped
      rfl

/-- A run adds to the count of the simulator what it counts itself. -/
theorem steps_run (simulator : Simulator) (budget : Nat) :
    (simulator.run budget).2.steps = simulator.steps + (simulator.run budget).1.steps := by
  induction budget, simulator using run_induction with
  | zero simulator => rfl
  | trapped budget simulator trap next stepped =>
    rw [run_of_trapped stepped]
    exact steps_of_trapped stepped
  | stays budget simulator next stepped stays =>
    rw [run_of_stays stepped stays]
    exact steps_of_continued stepped
  | moves budget simulator next stepped moves inductionHypothesis =>
    rw [run_of_moves stepped moves]
    show (next.run budget).2.steps = simulator.steps + (1 + (next.run budget).1.steps)
    rw [inductionHypothesis, steps_of_continued stepped, Nat.add_assoc]

/-- A run lists as many executed instructions as it counts. -/
theorem size_executedFrom (budget : Nat) (simulator : Simulator) :
    ∀ found, (executedFrom found budget simulator).size =
      found.size + (simulator.run budget).1.steps := by
  induction budget, simulator using run_induction with
  | zero simulator => exact fun _ => rfl
  | trapped budget simulator trap next stepped =>
    intro found
    rw [executedFrom, stepped, run_of_trapped stepped]
    rfl
  | stays budget simulator next stepped stays =>
    intro found
    rw [executedFrom, stepped, run_of_stays stepped stays]
    dsimp only
    rw [if_pos stays, Array.size_push]
  | moves budget simulator next stepped moves inductionHypothesis =>
    intro found
    rw [executedFrom, stepped, run_of_moves stepped moves]
    show _ = found.size + (1 + (next.run budget).1.steps)
    dsimp only
    rw [if_neg moves, inductionHypothesis, Array.size_push, Nat.add_assoc]

theorem length_executed (simulator : Simulator) (budget : Nat) :
    (simulator.executed budget).toList.length = (simulator.run budget).1.steps :=
  (simulator.size_executedFrom budget #[]).trans (Nat.zero_add _)

/-! ### One act -/

/-- Whether the counts before and after a turn are as the turn says. The host is told of all the
instructions that were executed, and the simulator adds them to its count or starts over. -/
structure Accounts (before : Simulator) (turn : Turn) (after : Simulator) : Prop where
  reported : turn.executed.length = turn.reply.reported
  steps : after.steps =
    if turn.reply.restarts then 0 else before.steps + turn.executed.length

theorem accounts_load {Error : Type} {loaded : Except Error Unit × Simulator}
    (cases : (∃ image, loaded = (.ok (), simulator.started image)) ∨
      ∃ error, loaded = (.error error, simulator)) :
    simulator.Accounts { reply := .ofLoad loaded.1 } loaded.2 := by
  obtain ⟨image, rfl⟩ | ⟨error, rfl⟩ := cases
  · exact ⟨rfl, rfl⟩
  · exact ⟨rfl, rfl⟩

theorem accounts_step (simulator : Simulator) :
    simulator.Accounts (simulator.turn (.ask .step)) simulator.step.2 := by
  unfold turn
  cases stepped : simulator.step with
  | mk outcome next =>
    cases outcome with
    | continued => exact ⟨rfl, steps_of_continued stepped⟩
    | trapped trap => exact ⟨rfl, steps_of_trapped stepped⟩

theorem accounts_run (simulator : Simulator) (budget : Nat) :
    simulator.Accounts (simulator.turn (.ask (.run budget))) (simulator.run budget).2 where
  reported := simulator.length_executed budget
  steps := by
    rw [steps_run, ← length_executed]
    rfl

theorem accounts_act (simulator : Simulator) (act : Act) :
    simulator.Accounts (simulator.turn act) (simulator.act act) := by
  cases act with
  | leave machine => exact ⟨rfl, rfl⟩
  | ask request =>
    cases request with
    | load file => exact accounts_load (simulator.load_cases file)
    | loadFile path file => exact accounts_load (simulator.loadFile_cases path file)
    | loadImage image =>
      exact accounts_load ((simulator.loadImage_cases image).imp_left fun loaded => ⟨image, loaded⟩)
    | step => exact simulator.accounts_step
    | run budget => exact simulator.accounts_run budget
    | runToCompletion => exact simulator.accounts_run simulator.configuration.maxSteps
    | _ => exact ⟨rfl, rfl⟩

/-- Where nothing counts, the count stays. -/
theorem steps_of_uncounted {act : Act} (uncounted : simulator.Uncounted act) :
    (simulator.act act).steps = simulator.steps := by
  cases act with
  | leave machine => rfl
  | ask request =>
    cases request with
    | load file =>
      exact congrArg Simulator.steps (load_of_ne_ok uncounted)
    | loadFile path file =>
      obtain ⟨image, loaded⟩ | ⟨failure, failed⟩ := simulator.loadFile_cases path file
      · exact absurd (congrArg Prod.fst loaded) uncounted
      · exact congrArg (fun loaded => loaded.2.steps) failed
    | loadImage image =>
      obtain loaded | ⟨error, failed⟩ := simulator.loadImage_cases image
      · exact absurd (congrArg Prod.fst loaded) uncounted
      · exact congrArg (fun loaded => loaded.2.steps) failed
    | reset => exact uncounted.elim
    | step =>
      show simulator.step.2.steps = simulator.steps
      cases stepped : simulator.step with
      | mk outcome next =>
        cases outcome with
        | continued => exact absurd (congrArg Prod.fst stepped) uncounted
        | trapped trap => exact steps_of_trapped stepped
    | run budget =>
      have none : budget = 0 := uncounted
      rw [none]
      rfl
    | runToCompletion =>
      have none : simulator.configuration.maxSteps = 0 := uncounted
      show (simulator.run simulator.configuration.maxSteps).2.steps = simulator.steps
      rw [none]
      rfl
    | _ => rfl

/-! ### Histories -/

theorem actAll_concat (simulator : Simulator) (history : List Act) (act : Act) :
    simulator.actAll (history ++ [act]) = (simulator.actAll history).act act :=
  List.foldl_append

theorem turns_concat (history : List Act) (act : Act) :
    ∀ simulator : Simulator, simulator.turns (history ++ [act]) =
      simulator.turns history ++ [(simulator.actAll history).turn act] := by
  induction history with
  | nil => exact fun _ => rfl
  | cons first history inductionHypothesis =>
    intro simulator
    exact congrArg (simulator.turn first :: ·) (inductionHypothesis (simulator.act first))

section

variable (configuration : Configuration) (history : List Act)

/-- The simulator counts what was executed since it last started over. -/
theorem steps_actAll :
    ((new configuration).actAll history).steps =
      (executedIn (sinceRestart ((new configuration).turns history))).length := by
  -- Whether the simulator starts over is a matter of the last act, so acts are added at the end.
  induction history using List.reverseRecOn with
  | nil => rfl
  | append_singleton history act inductionHypothesis =>
    have accounts := ((new configuration).actAll history).accounts_act act
    rw [actAll_concat, accounts.steps, turns_concat, sinceRestart, List.rtakeWhile_concat]
    cases restarts : (((new configuration).actAll history).turn act).reply.restarts with
    | true => rfl
    | false =>
      rw [inductionHypothesis]
      simp [executedIn, sinceRestart]

theorem reported_of_mem_turns {history : List Act} {turn : Turn} :
    ∀ {simulator : Simulator}, turn ∈ simulator.turns history →
      turn.executed.length = turn.reply.reported := by
  induction history with
  | nil => exact fun member => nomatch member
  | cons act history inductionHypothesis =>
    intro simulator member
    rcases List.mem_cons.mp member with rfl | later
    · exact (simulator.accounts_act act).reported
    · exact inductionHypothesis later

/-- The word that the host reads is the count modulo the number of such words. -/
theorem counter_turns :
    counter ((new configuration).turns history) =
      UInt64.ofNat ((new configuration).actAll history).steps := by
  induction history using List.reverseRecOn with
  | nil => rfl
  | append_singleton history act inductionHypothesis =>
    have accounts := ((new configuration).actAll history).accounts_act act
    rw [actAll_concat, accounts.steps, turns_concat, counter, List.foldl_append, ← counter,
      inductionHypothesis]
    show Turn.tick _ _ = _
    unfold Turn.tick
    cases restarts : (((new configuration).actAll history).turn act).reply.restarts with
    | true => rfl
    | false => exact (foldl_tick _ _).trans (UInt64.ofNat_add _ _).symm

/-- The size of memory is the configured one, unless the host leaves a memory of another size. -/
theorem capacity_actAll (size : Nat)
    (kept : ∀ machine, Act.leave machine ∈ history → machine.capacity = size) :
    ∀ simulator : Simulator, simulator.machine.capacity = size →
      (simulator.actAll history).machine.capacity = size := by
  induction history with
  | nil => exact fun _ same => same
  | cons act history inductionHypothesis =>
    intro simulator same
    refine inductionHypothesis (fun machine member => kept machine (List.mem_cons_of_mem _ member))
      (simulator.act act) ?_
    cases act with
    | leave machine => exact kept machine List.mem_cons_self
    | ask request => exact (congrArg Prod.snd (simulator.frame_serve request)).trans same

end

/-- The count is exact after any history. It is the number of instructions that were executed since
the simulator was last reset or loaded with success, and the sum of what the host was told since
then: one for every step that was not refused, and for every run the number in its summary. The host
reads it as a word of 64 bits, which shows it truly unless more instructions were executed in all
than such words can count. A load that fails, a step that is refused, a run that may not execute
anything and whatever only touches the machine leave the count as it is. At any time memory has the
configured size, if the host, where it leaves another machine, leaves a memory of that size. -/
theorem steps_exact (configuration : Configuration) (history : List Act) :
    let simulator := (new configuration).actAll history
    let turns := (new configuration).turns history
    simulator.steps = (executedIn (sinceRestart turns)).length ∧
      simulator.steps = reportedIn (sinceRestart turns) ∧
      ((executedIn turns).length < UInt64.size → (counter turns).toNat = simulator.steps) ∧
      (∀ act, simulator.Uncounted act → (simulator.act act).steps = simulator.steps) ∧
      ((∀ machine, Act.leave machine ∈ history →
          machine.memory.size = configuration.memorySize) →
        ∀ before, before <+: history →
          ((new configuration).actAll before).machine.memory.size =
            configuration.memorySize) := by
  intro simulator turns
  have count : simulator.steps = (executedIn (sinceRestart turns)).length :=
    steps_actAll configuration history
  refine ⟨count, ?_, fun few => ?_, fun act => steps_of_uncounted, fun kept before leading => ?_⟩
  · rw [count]
    refine (reportedIn_eq _ fun turn member => ?_).symm
    exact reported_of_mem_turns ((List.rtakeWhile_suffix _ turns).subset member)
  · have small : simulator.steps < UInt64.size :=
      lt_of_le_of_lt (count ▸ length_sinceRestart_le turns) few
    rw [counter_turns]
    exact UInt64.toNat_ofNat_of_lt' small
  · exact capacity_actAll before configuration.memorySize
      (fun machine member => kept machine (leading.subset member)) (new configuration)
      (capacity_new configuration)

/-- An instruction that moves on, and a jump to itself. One instruction is executed before the reset
and two after it; then a load fails and a step is refused. -/
theorem steps_exact_restarted :
    let program : Machine := { memory := ⟨#[0x13, 0, 0, 0, 0x6f, 0, 0, 0, 0, 0, 0, 0]⟩ }
    let history : List Act :=
      [.leave program, .ask .step, .ask .reset, .leave program, .ask (.run 5),
        .ask (.load ⟨#[]⟩), .ask (.pokePc 8), .ask .step]
    let fresh := new { memorySize := 12 }
    let simulator := fresh.actAll history
    (executedIn (fresh.turns history)).length = 3 ∧ simulator.steps = 2 ∧
      reportedIn (sinceRestart (fresh.turns history)) = 2 ∧
      (counter (fresh.turns history)).toNat = 2 ∧
      (simulator.act (.ask .step)).steps = 2 ∧ simulator.machine.memory.size = 12 := by
  intro program history fresh simulator
  have whole : (executedIn (fresh.turns history)).length = 3 := by decide +kernel
  have recent : (executedIn (sinceRestart (fresh.turns history))).length = 2 := by decide +kernel
  have refused : simulator.Uncounted (.ask .step) := by
    show simulator.step.1 ≠ .continued
    decide +kernel
  have kept : ∀ machine, Act.leave machine ∈ history → machine.memory.size = 12 := by
    intro machine member
    have same : machine = program := by simpa [history] using member
    rw [same]
    rfl
  obtain ⟨count, told, word, uncounted, size⟩ := steps_exact { memorySize := 12 } history
  have two : simulator.steps = 2 := count.trans recent
  exact ⟨whole, two, told.symm.trans two, (word (by rw [whole]; decide)).trans two,
    (uncounted (.ask .step) refused).trans two, size kept history (List.prefix_refl history)⟩

end Simulator

end Hart
