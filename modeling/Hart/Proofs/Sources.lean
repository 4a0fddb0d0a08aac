/-
This file says which registers and which bytes a word names. A slot of an instruction does not say
what it is for, so the answer goes through the formats: what a format puts into a slot, and what an
operation of that format takes from it, have to agree. A slot that holds a source in one format
holds the destination in another, and an operation that took the wrong one would write a register
that its word names as a source.

For words that are known the two agree. The fields of the word then tell what the instruction takes
for its destination and its operands, and where it loads and stores.
-/

import Hart.Proofs.WellFormed

namespace Hart

open Word (registerOperand signedOperand)

/-! ### The registers of a word -/

namespace Format

/-- The field of a word whose register stands in a slot, if the format keeps a register there. -/
def registerField? (word : Word) : Format → Slot → Option (BitVec 5)
  | r, .first | i, .first | u, .first | j, .first => some word.rd
  | r, .second | i, .second | s, .first | b, .first => some word.rs1
  | r, .third | s, .second | b, .second => some word.rs2
  | _, _ => none

/-- The slots that hold source registers. -/
def sourceSlots : Format → List Slot
  | r => [.second, .third]
  | i => [.second]
  | s | b => [.first, .second]
  | u | j => []

/-- The registers that a word names as sources. -/
def sources (word : Word) : Format → List RegisterIndex
  | r | s | b => [word.rs1.toFin, word.rs2.toFin]
  | i => [word.rs1.toFin]
  | u | j => []

theorem exists_source {format : Format} {slot : Slot} (word : Word)
    (member : slot ∈ format.sourceSlots) :
    ∃ field, format.registerField? word slot = some field ∧
      field.toFin ∈ format.sources word := by
  revert member
  cases format <;> cases slot <;> simp [sourceSlots, registerField?, sources]

end Format

theorem Opcode.get_operands {opcode : Opcode} {word : Word} {slot : Slot} {field : BitVec 5}
    (kept : opcode.format.registerField? word slot = some field) :
    (opcode.operands word).get slot = registerOperand field := by
  cases opcode <;> cases slot <;> cases kept <;> rfl

/-! ### What operations do with the slots -/

/-- The branches. -/
def Operation.branches : List Operation :=
  [beq, bne, blt, bge, bltu, bgeu]

/-- Whether an operation writes a result into a register: it is neither a store nor a branch nor a
fence. -/
def Operation.HasResult (operation : Operation) : Prop :=
  operation.storeWidth? = none ∧ operation ∉ branches ∧ operation ≠ .fence

instance (operation : Operation) : Decidable operation.HasResult :=
  inferInstanceAs (Decidable (_ ∧ _))

/-- The slots that an action reads as registers. -/
def Action.reads : Action → List Slot
  | loadUpper | addUpper | jump | fence => []
  | jumpRegister | load _ _ | immediate _ => [.second]
  | branch _ | store _ => [.first, .second]
  | register _ => [.second, .third]

section

variable {operation : Operation} {layout : Layout} {action : Action} {width : Nat}

theorem hasResult_iff_of_action (executes : operation.action? = some action) :
    operation.HasResult ↔ action.kind = .result ∨ action.kind = .link := by
  cases operation <;> cases executes <;> decide

/-- An operation reads the slots in which its words keep their sources. -/
theorem reads_subset_of_row (row : operation.layout? = some layout)
    (executes : operation.action? = some action) :
    action.reads ⊆ layout.opcode.format.sourceSlots := by
  cases operation <;> cases row <;> cases executes <;> decide

/-- The words of an operation with a result have a field for it. -/
theorem registerField?_of_row (row : operation.layout? = some layout)
    (result : operation.HasResult) (word : Word) :
    layout.opcode.format.registerField? word .first = some word.rd := by
  cases operation <;> cases row <;> first | rfl | exact absurd result (by decide)

theorem opcode_of_store (row : operation.layout? = some layout)
    (written : operation.storeWidth? = some width) : layout.opcode = .store := by
  cases operation <;> cases written <;> cases row <;> rfl

theorem opcode_of_load (row : operation.layout? = some layout)
    (read : operation.loadWidth? = some width) : layout.opcode = .load := by
  cases operation <;> cases read <;> cases row <;> rfl

end

/-! ### What decoded words name -/

namespace Machine

/-- Where a word that loads does so: the register in its field rs1 plus the immediate of format
I. -/
def loadAddress (machine : Machine) (word : Word) : UInt64 :=
  machine.registerValue word.rs1.toFin + (signedOperand word.immediateI).toUInt64

/-- Where a word that stores does so: the register in its field rs1 plus the immediate of format
S. -/
def storeAddress (machine : Machine) (word : Word) : UInt64 :=
  machine.registerValue word.rs1.toFin + (signedOperand word.immediateS).toUInt64

end Machine

section

variable {word : Word} {opcode : Opcode} (found : word.opcode? = some opcode)
  (known : (opcode.operation word).isKnown = true) (address : Int64) {width : Nat}
include found known

/-- The row of a known word in the assembler's table has the word's opcode. -/
theorem exists_row_decodeWord :
    ∃ layout, (decodeWord word address).operation.layout? = some layout ∧
      layout.opcode = opcode :=
  ⟨opcode.layout word, (row_decodeWord found address known).1, Opcode.opcode_layout word opcode⟩

theorem destination_decodeWord (result : (decodeWord word address).operation.HasResult) :
    (decodeWord word address).destination = word.rd.toFin := by
  obtain ⟨layout, row, rfl⟩ := exists_row_decodeWord found known address
  exact register_decodeWord found address
    (Opcode.get_operands (registerField?_of_row row result word))

theorem opcode_of_storeWidth
    (written : (decodeWord word address).operation.storeWidth? = some width) :
    opcode = .store := by
  obtain ⟨layout, row, rfl⟩ := exists_row_decodeWord found known address
  exact opcode_of_store row written

theorem opcode_of_loadWidth
    (read : (decodeWord word address).operation.loadWidth? = some width) :
    opcode = .load := by
  obtain ⟨layout, row, rfl⟩ := exists_row_decodeWord found known address
  exact opcode_of_load row read

theorem reached_of_storeWidth (machine : Machine)
    (written : (decodeWord word address).operation.storeWidth? = some width) :
    machine.reached (decodeWord word address) .first = machine.storeAddress word := by
  obtain rfl := opcode_of_storeWidth found known address written
  unfold Machine.reached Machine.storeAddress
  rw [register_decodeWord found address rfl, operands_decodeWord found]
  rfl

theorem reached_of_loadWidth (machine : Machine)
    (read : (decodeWord word address).operation.loadWidth? = some width) :
    machine.reached (decodeWord word address) .second = machine.loadAddress word := by
  obtain rfl := opcode_of_loadWidth found known address read
  unfold Machine.reached Machine.loadAddress
  rw [register_decodeWord found address rfl, operands_decodeWord found]
  rfl

/-- What a word stores is the register in its field rs2. -/
theorem register_of_storeWidth
    (written : (decodeWord word address).operation.storeWidth? = some width) :
    (decodeWord word address).register .second = word.rs2.toFin := by
  obtain rfl := opcode_of_storeWidth found known address written
  exact register_decodeWord found address rfl

omit known in
theorem format?_decodeWord : (decodeWord word address).format? = some opcode.format := by
  rw [decodeWord_of_opcode found]
  show (Format.all.find? fun format => opcode.flags.contains format.flag) = some opcode.format
  cases opcode <;> decide

/-- Every register that an action reads is one that the word names as a source. -/
theorem register_mem_sources {action : Action} {slot : Slot}
    (executes : (decodeWord word address).operation.action? = some action)
    (read : slot ∈ action.reads) :
    (decodeWord word address).register slot ∈ opcode.format.sources word := by
  obtain ⟨layout, row, rfl⟩ := exists_row_decodeWord found known address
  obtain ⟨field, kept, member⟩ :=
    Format.exists_source word (reads_subset_of_row row executes read)
  rw [register_decodeWord found address (Opcode.get_operands kept)]
  exact member

end

end Hart
