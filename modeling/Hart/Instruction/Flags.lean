/-
This file holds the properties that an instruction carries besides its operation: whether it takes
over the program counter, whether it was a compressed parcel, and which encoding format its operands
follow. A hand-built instruction may carry any combination, so the properties form a plain set.
-/

namespace Hart

/-- One property of an instruction. -/
inductive Flag where
  /-- The operation sets the program counter itself. -/
  | jump
  /-- A parcel of sixteen bits. -/
  | compressed
  | rType | iType | sType | bType | uType | jType
deriving DecidableEq, Repr

/-- Every flag once, in the order in which they are listed. -/
def Flag.all : List Flag :=
  [.jump, .compressed, .rType, .iType, .sType, .bType, .uType, .jType]

/-- The position of a flag in the bit pattern of a set. -/
def Flag.position : Flag → Nat
  | .jump => 0 | .compressed => 1
  | .rType => 2 | .iType => 3 | .sType => 4 | .bType => 5 | .uType => 6 | .jType => 7

/-- A set of flags, one bit for each. -/
structure FlagSet where
  bits : BitVec 8
deriving DecidableEq, Repr

namespace FlagSet

/-- The set without members. -/
def none : FlagSet :=
  ⟨0⟩

/-- The set with a single member. -/
def only (flag : Flag) : FlagSet :=
  ⟨1#8 <<< flag.position⟩

/-- The flags of either set. -/
def union (first second : FlagSet) : FlagSet :=
  ⟨first.bits ||| second.bits⟩

/-- The flags of the first set that are not in the second. -/
def diff (first second : FlagSet) : FlagSet :=
  ⟨first.bits &&& ~~~second.bits⟩

/-- Whether every flag of the first set is in the second. -/
def subset (first second : FlagSet) : Bool :=
  second.bits &&& first.bits == first.bits

instance : EmptyCollection FlagSet := ⟨none⟩
instance : Singleton Flag FlagSet := ⟨only⟩
instance : Union FlagSet := ⟨union⟩
instance : Insert Flag FlagSet := ⟨fun flag set => only flag ∪ set⟩
instance : SDiff FlagSet := ⟨diff⟩

/-- Whether the flag is in the set. -/
def contains (set : FlagSet) (flag : Flag) : Bool :=
  subset (only flag) set

/-- The set of the listed flags. -/
def ofList (flags : List Flag) : FlagSet :=
  flags.foldr (fun flag set => insert flag set) ∅

/-- The members of the set in listing order. -/
def toList (set : FlagSet) : List Flag :=
  Flag.all.filter set.contains

/-! ### Membership -/

theorem contains_eq_getLsbD (set : FlagSet) (flag : Flag) :
    set.contains flag = set.bits.getLsbD flag.position := by
  obtain ⟨bits⟩ := set
  revert bits
  cases flag <;> decide

@[simp] theorem contains_empty (flag : Flag) : contains ∅ flag = false := by
  cases flag <;> decide

@[simp] theorem contains_union (first second : FlagSet) (flag : Flag) :
    (first ∪ second).contains flag = (first.contains flag || second.contains flag) := by
  rw [contains_eq_getLsbD, contains_eq_getLsbD, contains_eq_getLsbD]
  exact BitVec.getLsbD_or

@[simp] theorem contains_diff (first second : FlagSet) (flag : Flag) :
    (first \ second).contains flag = (first.contains flag && !second.contains flag) := by
  rw [contains_eq_getLsbD, contains_eq_getLsbD, contains_eq_getLsbD]
  have inside : flag.position < 8 := by cases flag <;> decide
  simp [SDiff.sdiff, diff, inside]

end FlagSet

end Hart
