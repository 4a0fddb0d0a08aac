/-
This file proves that a program which gets along with its memory would have behaved the same with
more of it. An instruction that is executed lies in memory with all its bytes, and so does all that
it reads and writes apart from the console; what stands behind the memory is neither seen nor
changed. A load of a program does not see it either, so the only thing that a larger memory adds is
zero bytes at its end.

The converse fails: an instruction that traps may be executed where memory is larger.
-/

import Hart.Proofs.Loading
import Hart.Proofs.Parcels
import Hart.Proofs.Running

namespace Hart

/-! ### Decoding -/

theorem decode_append {buffer : ByteArray} {offset : Int64}
    (known : (decode buffer offset).operation ≠ .unknown) (extra : ByteArray) :
    decode (buffer ++ extra) offset = decode buffer offset := by
  obtain ⟨present, standard, inside⟩ := whole_of_decode known
  have size : (buffer ++ extra).size = buffer.size + extra.size := ByteArray.size_append
  have present' : Present (buffer ++ extra) offset := ⟨present.1, by omega⟩
  have standard' : Standard (buffer ++ extra) offset := by
    rw [Standard, Bytes.byteAt_append, if_pos present.2]
    exact standard
  have inside' : offset.toNatClampNeg + 4 ≤ (buffer ++ extra).size := by omega
  have word : wordAt (buffer ++ extra) offset.toNatClampNeg =
      wordAt buffer offset.toNatClampNeg := by
    unfold wordAt
    rw [Bytes.slice_append_left _ _ _ _ inside]
  rw [← (Parcel.whole present standard inside).eq_decode,
    ← (Parcel.whole present' standard' inside').eq_decode, word]

/-! ### Loads and stores -/

/-- Whether what an effect writes to memory lies within the first `capacity` bytes. -/
def Effect.Within (capacity : Nat) : Effect → Prop
  | .write (.memory address bytes) => address + bytes.length ≤ capacity
  | _ => True

namespace Machine

/-- The machine with more memory behind the memory it has. -/
def extend (machine : Machine) (extra : ByteArray) : Machine :=
  { machine with memory := machine.memory ++ extra }

variable {machine : Machine} {instruction : Instruction} {address : UInt64} {width : Nat}

theorem capacity_extend (machine : Machine) (extra : ByteArray) :
    (machine.extend extra).capacity = machine.capacity + extra.size :=
  ByteArray.size_append

theorem accessible_extend (inside : machine.accessible address width = true)
    (extra : ByteArray) : (machine.extend extra).accessible address width = true := by
  obtain ⟨real, fits⟩ := Bool.and_eq_true_iff.mp inside
  refine Bool.and_eq_true_iff.mpr ⟨real, decide_eq_true ?_⟩
  rw [capacity_extend]
  exact Nat.le_add_right_of_le (of_decide_eq_true fits)

theorem load_extend {value : UInt64} (loads : machine.load address width = .ok value)
    (extra : ByteArray) : (machine.extend extra).load address width = .ok value := by
  unfold load at loads ⊢
  by_cases inside : machine.accessible address width = true
  · have fits := of_decide_eq_true (Bool.and_eq_true_iff.mp inside).2
    rw [if_pos inside] at loads
    rw [if_pos (accessible_extend inside extra), ← loads]
    show Except.ok (UInt64.ofNat (Bytes.littleEndian (Bytes.slice (_ ++ extra) _ _))) = _
    rw [Bytes.slice_append_left _ _ _ _ fits]
  · rw [if_neg inside] at loads
    cases loads

theorem write?_extend {value : UInt64} {write : Write}
    (writes : machine.write? address width value = .ok write) (extra : ByteArray) :
    (machine.extend extra).write? address width value = .ok write := by
  unfold write? at writes ⊢
  by_cases delivered : address = console ∧ accessWidths.contains width
  · rw [if_pos delivered] at writes ⊢
    exact writes
  · rw [if_neg delivered] at writes ⊢
    by_cases inside : machine.accessible address width = true
    · rw [if_pos inside] at writes
      rw [if_pos (accessible_extend inside extra)]
      exact writes
    · rw [if_neg inside] at writes
      cases writes

theorem within_of_write? {value : UInt64} {write : Write}
    (writes : machine.write? address width value = .ok write) :
    (Effect.write write).Within machine.capacity := by
  unfold write? at writes
  by_cases delivered : address = console ∧ accessWidths.contains width
  · rw [if_pos delivered] at writes
    cases writes
    exact trivial
  · rw [if_neg delivered] at writes
    by_cases inside : machine.accessible address width = true
    · rw [if_pos inside] at writes
      cases writes
      show address.toNat + (Bytes.ofNumber width value.toNat).length ≤ machine.capacity
      rw [Bytes.length_ofNumber]
      exact of_decide_eq_true (Bool.and_eq_true_iff.mp inside).2
    · rw [if_neg inside] at writes
      cases writes

/-! ### One step -/

variable {effect : Effect}

theorem effect_load_extend {extend : UInt64 → UInt64}
    (works : machine.effect instruction (.load width extend) = .ok effect) (extra : ByteArray) :
    (machine.extend extra).effect instruction (.load width extend) = .ok effect ∧
      effect.Within machine.capacity := by
  unfold Machine.effect at works ⊢
  dsimp only at works ⊢
  cases loads : machine.load (machine.effectiveAddress instruction .second) width with
  | error trap =>
    rw [loads] at works
    cases works
  | ok value =>
    have loads' : (machine.extend extra).load
        ((machine.extend extra).effectiveAddress instruction .second) width = .ok value :=
      load_extend loads extra
    rw [loads] at works
    rw [loads']
    cases works
    exact ⟨rfl, trivial⟩

theorem effect_store_extend (works : machine.effect instruction (.store width) = .ok effect)
    (extra : ByteArray) :
    (machine.extend extra).effect instruction (.store width) = .ok effect ∧
      effect.Within machine.capacity := by
  unfold Machine.effect at works ⊢
  dsimp only at works ⊢
  cases writes : machine.write? (machine.effectiveAddress instruction .first) width
      (machine.operand instruction .second) with
  | error trap =>
    rw [writes] at works
    cases works
  | ok write =>
    have writes' : (machine.extend extra).write?
        ((machine.extend extra).effectiveAddress instruction .first) width
        ((machine.extend extra).operand instruction .second) = .ok write :=
      write?_extend writes extra
    rw [writes] at works
    rw [writes']
    cases works
    exact ⟨rfl, within_of_write? writes⟩

theorem within_of_branch {condition : UInt64 → UInt64 → Bool}
    (works : machine.effect instruction (.branch condition) = .ok effect) :
    effect.Within machine.capacity := by
  unfold Machine.effect at works
  dsimp only at works
  by_cases holds :
      condition (machine.operand instruction .first) (machine.operand instruction .second)
  · rw [if_pos holds] at works
    cases works
    exact trivial
  · rw [if_neg holds] at works
    cases works
    exact trivial

/-- An effect that can be worked out is the same with more memory, and it stays within the memory
that there was. -/
theorem effect?_extend (works : machine.effect? instruction = .ok effect) (extra : ByteArray) :
    (machine.extend extra).effect? instruction = .ok effect ∧
      effect.Within machine.capacity := by
  cases executes : instruction.operation.action? with
  | none =>
    rw [effect?_of_no_action _ executes] at works
    cases works
  | some action =>
    rw [effect?_of_action _ executes] at works ⊢
    cases action with
    | load width extend => exact effect_load_extend works extra
    | store width => exact effect_store_extend works extra
    | branch condition => exact ⟨works, within_of_branch works⟩
    | _ =>
      cases works
      exact ⟨rfl, trivial⟩

theorem apply_extend (within : effect.Within machine.capacity) (extra : ByteArray) :
    (machine.extend extra).apply effect = (machine.apply effect).extend extra := by
  cases effect with
  | write write =>
    cases write with
    | deliver delivery => rfl
    | memory address bytes =>
      exact congrArg (fun memory => { machine with memory })
        (Bytes.overwrite_append_left _ _ _ _ within)
  | _ => rfl

theorem advance_extend (machine : Machine) (instruction : Instruction) (extra : ByteArray) :
    (machine.extend extra).advance instruction = (machine.advance instruction).extend extra := by
  unfold advance
  by_cases jumps : instruction.isJump
  · rw [if_pos jumps, if_pos jumps]
  · rw [if_neg jumps, if_neg jumps]
    rfl

/-- An instruction that is executed is executed with more memory too, and leaves what was added
alone. -/
theorem execute_extend (completed : (machine.execute instruction).1 = .continued)
    (extra : ByteArray) :
    (machine.extend extra).execute instruction =
      (.continued, (machine.execute instruction).2.extend extra) := by
  obtain ⟨effect, works⟩ := exists_effect_of_continued completed
  obtain ⟨works', within⟩ := effect?_extend works extra
  have extended : (machine.extend extra).clearZero.effect? instruction = .ok effect := works'
  rw [execute_of_ok works, execute_of_ok extended]
  show (_, (((machine.clearZero.extend extra).apply effect).advance instruction).clearZero) = _
  rw [apply_extend within, advance_extend]
  rfl

theorem fetch_extend (completed : machine.step.1 = .continued) (extra : ByteArray) :
    (machine.extend extra).fetch = machine.fetch := by
  obtain ⟨effect, works⟩ := exists_effect_of_continued completed
  refine decode_append (fun unknown => ?_) extra
  have missing : machine.fetch.operation.action? = none := by
    have same : machine.fetch.operation = .unknown := unknown
    rw [same]
    rfl
  rw [effect?_of_no_action _ missing] at works
  cases works

theorem step_extend (completed : machine.step.1 = .continued) (extra : ByteArray) :
    (machine.extend extra).step = (.continued, machine.step.2.extend extra) := by
  unfold step
  rw [fetch_extend completed]
  exact execute_extend completed extra

end Machine

/-! ### Runs -/

namespace Simulator

/-- The simulator with another configuration and with more memory. -/
def enlarge (simulator : Simulator) (configuration : Configuration) (extra : ByteArray) :
    Simulator :=
  { simulator with configuration, machine := simulator.machine.extend extra }

variable {simulator next : Simulator} (configuration : Configuration) (extra : ByteArray)

theorem step_enlarge (stepped : simulator.step = (.continued, next)) :
    (simulator.enlarge configuration extra).step =
      (.continued, next.enlarge configuration extra) := by
  unfold step at stepped ⊢
  cases executed : simulator.machine.step with
  | mk outcome machine =>
    rw [executed] at stepped
    cases outcome with
    | trapped trap => cases stepped
    | continued =>
      cases stepped
      have completed : simulator.machine.step.1 = .continued := congrArg Prod.fst executed
      have extended : (simulator.enlarge configuration extra).machine.step =
          (.continued, machine.extend extra) := by
        have machines := Machine.step_extend completed extra
        rw [executed] at machines
        exact machines
      rw [extended]
      rfl

theorem run_enlarge (budget : Nat) (simulator : Simulator)
    (untrapped : ∀ trap, (simulator.run budget).1.reason ≠ .trapped trap) :
    (simulator.enlarge configuration extra).run budget =
      ((simulator.run budget).1, (simulator.run budget).2.enlarge configuration extra) := by
  induction budget, simulator using run_induction with
  | zero simulator => rfl
  | trapped budget simulator trap next stepped =>
    rw [run_of_trapped stepped] at untrapped
    exact absurd rfl (untrapped trap)
  | stays budget simulator next stepped stays =>
    have stepped' := step_enlarge configuration extra stepped
    rw [run_of_stays stepped stays, run_of_stays stepped' stays]
    rfl
  | moves budget simulator next stepped moves inductionHypothesis =>
    have stepped' := step_enlarge configuration extra stepped
    rw [run_of_moves stepped moves] at untrapped ⊢
    rw [run_of_moves stepped' moves, inductionHypothesis untrapped]

/-! ### From a new simulator on -/

/-- A new simulator with a sink attached, or with none. -/
def heardBy (configuration : Configuration) (sink : Option Sink) : Simulator :=
  (Simulator.new configuration).retarget configuration sink

theorem capacity_heardBy (configuration : Configuration) (sink : Option Sink) :
    (heardBy configuration sink).machine.capacity = configuration.memorySize :=
  capacity_new configuration

/-- With an image loaded, the larger of two new simulators is the smaller one with zero bytes added
to its memory. -/
theorem started_enlarge {small large : Configuration} {image : Image} (sink : Option Sink)
    (fits : image.address.toNat + image.code.size ≤ small.memorySize)
    (grows : small.memorySize ≤ large.memorySize) :
    (heardBy large sink).started image =
      ((heardBy small sink).started image).enlarge large
        (Bytes.zeros (large.memorySize - small.memorySize)) := by
  have memory : Bytes.zeros large.memorySize =
      Bytes.zeros small.memorySize ++ Bytes.zeros (large.memorySize - small.memorySize) := by
    rw [Bytes.zeros_append_zeros, Nat.add_sub_cancel' grows]
  have inside :
      image.address.toNat + image.codeBytes.length ≤ (Bytes.zeros small.memorySize).size := by
    rw [Bytes.size_zeros]
    exact fits
  unfold started
  rw [capacity_heardBy, capacity_heardBy, memory, Bytes.overwrite_append_left _ _ _ _ inside]
  rfl

/-- More memory never changes a run that does not trap. A new simulator that is larger loads the
same program; the run has the same summary, leaves the same registers, and lets the sink hear the
same, while memory only has zero bytes added at its end. Whatever a machine has in front, each
instruction that it executes, fetched or given, is executed with any bytes behind its memory too:
program counter, registers and sink end up the same, and the bytes that were added stay. -/
theorem run_enlarged :
    (∀ (small large : Configuration) (sink : Option Sink) (file : ByteArray) (budget : Nat),
      small.memorySize ≤ large.memorySize →
      ((heardBy small sink).load file).1 = .ok () →
      (∀ trap, (((heardBy small sink).load file).2.run budget).1.reason ≠ .trapped trap) →
        let first := ((heardBy small sink).load file).2.run budget
        let second := ((heardBy large sink).load file).2.run budget
        ((heardBy large sink).load file).1 = .ok () ∧ second.1 = first.1 ∧
          second.2.machine.registers = first.2.machine.registers ∧
          second.2.machine.sink = first.2.machine.sink ∧
          second.2.machine.memory =
            first.2.machine.memory ++ Bytes.zeros (large.memorySize - small.memorySize)) ∧
      (∀ (machine : Machine) (extra : ByteArray), machine.step.1 = .continued →
        (machine.extend extra).step = (.continued, machine.step.2.extend extra)) ∧
      ∀ (machine : Machine) (instruction : Instruction) (extra : ByteArray),
        (machine.execute instruction).1 = .continued →
          (machine.extend extra).execute instruction =
            (.continued, (machine.execute instruction).2.extend extra) := by
  refine ⟨?_, fun machine extra completed => Machine.step_extend completed extra,
    fun machine instruction extra completed => Machine.execute_extend completed extra⟩
  intro small large sink file budget grows loads untrapped first second
  obtain ⟨image, parsed, fits⟩ := load_eq_ok_iff.mp loads
  rw [capacity_heardBy] at fits
  have loaded : (heardBy small sink).load file =
      (.ok (), (heardBy small sink).started image) :=
    load_of_fits parsed ((capacity_heardBy small sink).symm ▸ fits)
  have loaded' : (heardBy large sink).load file =
      (.ok (), (heardBy large sink).started image) :=
    load_of_fits parsed ((capacity_heardBy large sink).symm ▸ Nat.le_trans fits grows)
  have runs : first = ((heardBy small sink).started image).run budget :=
    congrArg (fun result => result.2.run budget) loaded
  have runs' : second = ((heardBy large sink).started image).run budget :=
    congrArg (fun result => result.2.run budget) loaded'
  have same : second = (first.1, first.2.enlarge large
      (Bytes.zeros (large.memorySize - small.memorySize))) := by
    rw [runs', started_enlarge sink fits grows, runs]
    refine run_enlarge _ _ _ _ fun trap => ?_
    rw [← runs]
    exact untrapped trap
  rw [same, loaded']
  exact ⟨rfl, rfl, rfl, rfl, rfl⟩

/-- The small file runs in twice the memory as it runs in a memory of 32 bytes. -/
theorem run_enlarged_smallFile :
    ((heardBy { memorySize := 32 } (some {})).load smallFile).1 = .ok () ∧
      (((heardBy { memorySize := 32 } (some {})).load smallFile).2.run 1).1 =
        ⟨1, 20, .stepLimit⟩ ∧
      ((heardBy { memorySize := 64 } (some {})).load smallFile).1 = .ok () ∧
      (((heardBy { memorySize := 64 } (some {})).load smallFile).2.run 1).1 =
        ⟨1, 20, .stepLimit⟩ ∧
      (((heardBy { memorySize := 64 } (some {})).load smallFile).2.run 1).2.machine.memory =
        (((heardBy { memorySize := 32 } (some {})).load smallFile).2.run 1).2.machine.memory ++
          Bytes.zeros 32 := by
  have loads : ((heardBy { memorySize := 32 } (some {})).load smallFile).1 = .ok () := by
    obtain ⟨image, parsed, -, address, code⟩ := ofElf_smallFile
    have length : image.code.size = 4 := congrArg List.length code
    refine load_eq_ok_iff.mpr ⟨image, parsed, ?_⟩
    rw [address, length, capacity_heardBy]
    decide
  have summary : (((heardBy { memorySize := 32 } (some {})).load smallFile).2.run 1).1 =
      ⟨1, 20, .stepLimit⟩ := by decide +kernel
  have untrapped : ∀ trap,
      (((heardBy { memorySize := 32 } (some {})).load smallFile).2.run 1).1.reason ≠
        .trapped trap := by
    intro trap
    rw [summary]
    nofun
  obtain ⟨loads', same, -, -, memory⟩ := run_enlarged.1 { memorySize := 32 } { memorySize := 64 }
    (some {}) smallFile 1 (by decide) loads untrapped
  exact ⟨loads, summary, loads', same.trans summary, memory⟩

end Simulator

end Hart
