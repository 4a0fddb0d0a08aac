/-
This file lists the operations of the supported part of RV64I, together with two markers for words
that stand for no operation. An operation says what an instruction does and nothing about its
operands.
-/

namespace Hart

/-- What an instruction does. -/
inductive Operation where
  /-- No operation has been chosen. A decoded instruction never carries it. -/
  | invalid
  /-- The word is no encoding of the supported set. -/
  | unknown
  | lui | auipc
  | jal | jalr
  | beq | bne | blt | bge | bltu | bgeu
  | lb | lh | lw | ld | lbu | lhu | lwu
  | sb | sh | sw | sd
  | addi | slti | sltiu | xori | ori | andi | slli | srli | srai
  | add | sub | sll | slt | sltu | xor | srl | sra | or | and
  | addiw | slliw | srliw | sraiw
  | addw | subw | sllw | srlw | sraw
  | fence
  | ecall | ebreak
deriving DecidableEq, Repr

namespace Operation

/-- The lower-case name that assembly text uses. -/
def mnemonic : Operation → String
  | invalid => "invalid" | unknown => "unknown"
  | lui => "lui" | auipc => "auipc"
  | jal => "jal" | jalr => "jalr"
  | beq => "beq" | bne => "bne" | blt => "blt" | bge => "bge" | bltu => "bltu" | bgeu => "bgeu"
  | lb => "lb" | lh => "lh" | lw => "lw" | ld => "ld" | lbu => "lbu" | lhu => "lhu" | lwu => "lwu"
  | sb => "sb" | sh => "sh" | sw => "sw" | sd => "sd"
  | addi => "addi" | slti => "slti" | sltiu => "sltiu" | xori => "xori" | ori => "ori"
  | andi => "andi" | slli => "slli" | srli => "srli" | srai => "srai"
  | add => "add" | sub => "sub" | sll => "sll" | slt => "slt" | sltu => "sltu" | xor => "xor"
  | srl => "srl" | sra => "sra" | or => "or" | and => "and"
  | addiw => "addiw" | slliw => "slliw" | srliw => "srliw" | sraiw => "sraiw"
  | addw => "addw" | subw => "subw" | sllw => "sllw" | srlw => "srlw" | sraw => "sraw"
  | fence => "fence"
  | ecall => "ecall" | ebreak => "ebreak"

/-- The capitalised name that trap messages use. -/
def name (operation : Operation) : String :=
  operation.mnemonic.capitalize

/-- Every operation once, the two markers first. -/
def all : List Operation :=
  [invalid, unknown, lui, auipc, jal, jalr, beq, bne, blt, bge, bltu, bgeu,
    lb, lh, lw, ld, lbu, lhu, lwu, sb, sh, sw, sd,
    addi, slti, sltiu, xori, ori, andi, slli, srli, srai,
    add, sub, sll, slt, sltu, xor, srl, sra, or, and,
    addiw, slliw, srliw, sraiw, addw, subw, sllw, srlw, sraw, fence, ecall, ebreak]

theorem mem_all (operation : Operation) : operation ∈ all := by
  cases operation <;> decide

/-- The operation with a given capitalised name. -/
def ofName? (text : String) : Option Operation :=
  all.find? fun operation => operation.name == text

/-- Whether the operation is one of the instruction set and not a marker. -/
def isKnown : Operation → Bool
  | invalid | unknown => false
  | _ => true

end Operation

end Hart
