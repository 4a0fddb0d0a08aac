/-
This file relates byte sequences to the numbers they write. The machine stores numbers least
significant byte first; executable files state in their header which of the two orders they use.
-/

namespace Hart.Bytes

/-- The order in which the bytes of a number stand. -/
inductive Order where
  /-- Least significant byte first. -/
  | little
  /-- Most significant byte first. -/
  | big
deriving DecidableEq, Repr

/-- The number that bytes write, least significant first. -/
def littleEndian : List UInt8 → Nat
  | [] => 0
  | byte :: rest => byte.toNat + 256 * littleEndian rest

/-- The number that bytes write, most significant first. -/
def bigEndian (bytes : List UInt8) : Nat :=
  littleEndian bytes.reverse

/-- The number that bytes write in the given order. -/
def Order.number : Order → List UInt8 → Nat
  | .little => littleEndian
  | .big => bigEndian

/-- The lowest `width` bytes of a number, least significant first. -/
def ofNumber : (width value : Nat) → List UInt8
  | 0, _ => []
  | width + 1, value => UInt8.ofNat value :: ofNumber width (value / 256)

/-! ### Reading and writing are inverse -/

@[simp] theorem length_ofNumber (width value : Nat) : (ofNumber width value).length = width := by
  induction width generalizing value with
  | zero => rfl
  | succ width inductionHypothesis => simp [ofNumber, inductionHypothesis]

/-- The bytes of a number, by position. -/
theorem getElem?_ofNumber (width value index : Nat) :
    (ofNumber width value)[index]? =
      if index < width then some (UInt8.ofNat (value >>> (8 * index))) else none := by
  induction width generalizing value index with
  | zero => rfl
  | succ width inductionHypothesis =>
    cases index with
    | zero => rfl
    | succ index =>
      have quotient : (value / 256) >>> (8 * index) = value >>> (8 * (index + 1)) := by
        rw [Nat.mul_succ, Nat.add_comm, Nat.shiftRight_add, Nat.shiftRight_eq_div_pow value 8]
      rw [ofNumber, List.getElem?_cons_succ, inductionHypothesis, quotient]
      simp only [Nat.add_lt_add_iff_right]

/-- Every byte sequence is the writing of its own number. -/
theorem ofNumber_littleEndian (bytes : List UInt8) :
    ofNumber bytes.length (littleEndian bytes) = bytes := by
  induction bytes with
  | nil => rfl
  | cons byte rest inductionHypothesis =>
    have := byte.toNat_lt
    have quotient : (byte.toNat + 256 * littleEndian rest) / 256 = littleEndian rest := by omega
    simp only [List.length_cons, ofNumber, littleEndian, quotient, inductionHypothesis,
      List.cons.injEq, and_true]
    apply UInt8.toNat_inj.mp
    rw [UInt8.toNat_ofNat']
    omega

end Hart.Bytes
