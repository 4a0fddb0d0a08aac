/-
This file says what decoding finds at an offset of a buffer. There are four cases, and the offset,
the low bits of one byte and the number of bytes that are left tell which of them it is: nothing, a
compressed parcel, a standard word that the buffer holds only in part, or a standard word. Only the
last can be an instruction of the set.

In all of them decoding looks at no bytes beyond those that it says the instruction takes, and what
it looks at does not depend on where they stand. So an instruction that lies in a buffer with all
its bytes can be moved to another buffer and is found there, at its new address.
-/

import Hart.Proofs.Decoding

namespace Hart

open Bytes (byteAt slice)

/-! ### Words -/

/-- The address of a word shows in the address of its instruction and nowhere else. -/
theorem decodeWord_moved (word : Word) (address other : Int64) :
    decodeWord word other = { decodeWord word address with address := other } := by
  cases found : word.opcode? with
  | none =>
    rw [decodeWord_of_opcode?_eq_none found, decodeWord_of_opcode?_eq_none found]
    rfl
  | some opcode => rw [decodeWord_of_opcode found, decodeWord_of_opcode found]

/-! ### The four cases -/

section

variable (buffer : ByteArray) (offset : Int64)

/-- Whether there is a byte at an offset. -/
abbrev Present : Prop :=
  0 ≤ offset ∧ offset.toNatClampNeg < buffer.size

/-- Whether the byte at an offset starts an instruction of the standard length. -/
abbrev Standard : Prop :=
  byteAt buffer offset.toNatClampNeg &&& 3 = 3

/-- What may be found at an offset. -/
inductive Parcel : Instruction → Prop
  | outside (absent : ¬Present buffer offset) : Parcel (.unknown offset 2)
  | compressed (present : Present buffer offset) (marked : ¬Standard buffer offset) :
      Parcel { Instruction.unknown offset 2 with flags := {.compressed} }
  | incomplete (present : Present buffer offset) (standard : Standard buffer offset)
      (short : ¬offset.toNatClampNeg + 4 ≤ buffer.size) : Parcel (.unknown offset 4)
  | whole (present : Present buffer offset) (standard : Standard buffer offset)
      (inside : offset.toNatClampNeg + 4 ≤ buffer.size) :
      Parcel (decodeWord (wordAt buffer offset.toNatClampNeg) offset)

/-- Decoding finds one of the four. -/
theorem parcel_decode : Parcel buffer offset (decode buffer offset) := by
  unfold decode
  dsimp only
  by_cases present : 0 ≤ offset ∧ offset.toNatClampNeg < buffer.size
  · rw [if_pos present]
    by_cases standard : byteAt buffer offset.toNatClampNeg &&& 3 = 3
    · rw [if_pos standard]
      by_cases inside : offset.toNatClampNeg + 4 ≤ buffer.size
      · rw [if_pos inside]
        exact .whole present standard inside
      · rw [if_neg inside]
        exact .incomplete present standard inside
    · rw [if_neg standard]
      exact .compressed present standard
  · rw [if_neg present]
    exact .outside present

end

/-- The cases exclude each other, so what may be found is what decoding finds. -/
theorem Parcel.eq_decode {buffer : ByteArray} {offset : Int64} {instruction : Instruction}
    (parcel : Parcel buffer offset instruction) : instruction = decode buffer offset := by
  unfold decode
  dsimp only
  cases parcel with
  | outside absent => exact (if_neg absent).symm
  | compressed present marked =>
    rw [if_pos present]
    exact (if_neg marked).symm
  | incomplete present standard short =>
    rw [if_pos present, if_pos standard]
    exact (if_neg short).symm
  | whole present standard inside =>
    rw [if_pos present, if_pos standard]
    exact (if_pos inside).symm

/-- An instruction that is known was decoded from a standard word that the buffer holds in full. -/
theorem whole_of_decode {buffer : ByteArray} {offset : Int64}
    (known : (decode buffer offset).operation ≠ .unknown) :
    Present buffer offset ∧ Standard buffer offset ∧
      offset.toNatClampNeg + 4 ≤ buffer.size := by
  have parcel := parcel_decode buffer offset
  generalize decode buffer offset = instruction at parcel known
  cases parcel with
  | outside | compressed | incomplete => exact absurd rfl known
  | whole present standard inside => exact ⟨present, standard, inside⟩

/-- The byte at which a standard word starts marks it as one. -/
theorem byteAt_and_three_of_isStandard {buffer : ByteArray} {start : Nat}
    (standard : (wordAt buffer start).isStandard) : byteAt buffer start &&& 3 = 3 := by
  have first : (wordAt buffer start).toNat % 4 = (byteAt buffer start).toNat % 4 := by
    unfold wordAt
    rw [BitVec.toNat_ofNat]
    show ((byteAt buffer start).toNat + 256 * _) % 2 ^ 32 % 4 = _
    omega
  apply UInt8.toNat_inj.mp
  rw [UInt8.toNat_and]
  show (byteAt buffer start).toNat &&& (2 ^ 2 - 1) = 3
  rw [Nat.and_two_pow_sub_one_eq_mod, ← first]
  exact standard

/-- A standard word that the buffer holds in full is decoded. -/
theorem decode_of_isStandard {buffer : ByteArray} {offset : Int64} (start : 0 ≤ offset.toInt)
    (finish : offset.toInt + 4 ≤ buffer.size)
    (standard : (wordAt buffer offset.toNatClampNeg).isStandard) :
    decode buffer offset = decodeWord (wordAt buffer offset.toNatClampNeg) offset := by
  have position : (offset.toNatClampNeg : Int) = offset.toInt := Int.toNat_of_nonneg start
  have present : Present buffer offset := ⟨Int64.le_iff_toInt_le.mpr start, by omega⟩
  exact (Parcel.whole present (byteAt_and_three_of_isStandard standard) (by omega)).eq_decode.symm

/-! ### Widths -/

/-- How many bytes decoding takes the instruction at an offset to have: four where a standard word
starts, whether the buffer holds all of it or not, and two everywhere else. -/
def parcelWidth (buffer : ByteArray) (offset : Int64) : UInt8 :=
  if Present buffer offset ∧ Standard buffer offset then 4 else 2

/-- The size that an instruction records is the width by which it was found. -/
theorem size_decode (buffer : ByteArray) (offset : Int64) :
    (decode buffer offset).size = parcelWidth buffer offset := by
  have parcel := parcel_decode buffer offset
  unfold parcelWidth
  generalize decode buffer offset = instruction at parcel ⊢
  cases parcel with
  | outside absent => exact (if_neg fun both => absent both.1).symm
  | compressed present marked => exact (if_neg fun both => marked both.2).symm
  | incomplete present standard short => exact (if_pos ⟨present, standard⟩).symm
  | whole present standard inside =>
    rw [size_decodeWord]
    exact (if_pos ⟨present, standard⟩).symm

theorem parcelWidth_cases (buffer : ByteArray) (offset : Int64) :
    parcelWidth buffer offset = 2 ∨ parcelWidth buffer offset = 4 := by
  unfold parcelWidth
  split
  · exact Or.inr rfl
  · exact Or.inl rfl

/-! ### Moving instructions -/

theorem present_ofNat_iff {buffer : ByteArray} {position : Nat} (small : position < 2 ^ 63) :
    Present buffer (Int64.ofNat position) ↔ position < buffer.size := by
  have start : (Int64.ofNat position).toNatClampNeg = position :=
    Int64.toNatClampNeg_ofNat_of_lt small
  have positive : 0 ≤ Int64.ofNat position := by
    rw [Int64.le_iff_toInt_le, Int64.toInt_ofNat_of_lt small]
    exact Int.natCast_nonneg position
  unfold Present
  rw [start]
  exact and_iff_right positive

/-- Equal runs of bytes start with equal bytes. -/
theorem byteAt_of_slice_eq {first second : ByteArray} {position other count : Nat}
    (same : slice second other (count + 1) = slice first position (count + 1)) :
    byteAt second other = byteAt first position :=
  List.head_eq_of_cons_eq same

/-- Decoding finds the same at two places, up to the address, if they are alike in what tells the
four cases apart and in the word, should there be one. -/
theorem decode_congr {first second : ByteArray} {offset other : Int64}
    (present_iff : Present second other ↔ Present first offset)
    (standard_iff : Present first offset → (Standard second other ↔ Standard first offset))
    (inside_iff : Present first offset → Standard first offset →
      (other.toNatClampNeg + 4 ≤ second.size ↔ offset.toNatClampNeg + 4 ≤ first.size))
    (word : Present first offset → Standard first offset →
      wordAt second other.toNatClampNeg = wordAt first offset.toNatClampNeg) :
    decode second other = { decode first offset with address := other } := by
  have parcel := parcel_decode first offset
  generalize decode first offset = instruction at parcel ⊢
  refine (Parcel.eq_decode ?_).symm
  cases parcel with
  | outside absent => exact .outside fun present => absent (present_iff.mp present)
  | compressed present marked =>
    exact .compressed (present_iff.mpr present)
      fun standard => marked ((standard_iff present).mp standard)
  | incomplete present standard short =>
    exact .incomplete (present_iff.mpr present) ((standard_iff present).mpr standard)
      fun inside => short ((inside_iff present standard).mp inside)
  | whole present standard inside =>
    have moved := Parcel.whole (present_iff.mpr present) ((standard_iff present).mpr standard)
      ((inside_iff present standard).mpr inside)
    rw [word present standard, decodeWord_moved _ offset] at moved
    exact moved

/-- Bytes that decode to an instruction decode to it wherever they stand, up to its address. They
have to be there all: of a standard word that is cut off nothing is said. -/
theorem decode_moved {first second : ByteArray} {position other : Nat}
    (small : position < 2 ^ 63) (small' : other < 2 ^ 63)
    (inside : position + (decode first (Int64.ofNat position)).size.toNat ≤ first.size)
    (inside' : other + (decode first (Int64.ofNat position)).size.toNat ≤ second.size)
    (same : slice second other (decode first (Int64.ofNat position)).size.toNat =
      slice first position (decode first (Int64.ofNat position)).size.toNat) :
    decode second (Int64.ofNat other) =
      { decode first (Int64.ofNat position) with address := Int64.ofNat other } := by
  have start : (Int64.ofNat position).toNatClampNeg = position :=
    Int64.toNatClampNeg_ofNat_of_lt small
  have start' : (Int64.ofNat other).toNatClampNeg = other :=
    Int64.toNatClampNeg_ofNat_of_lt small'
  rw [size_decode] at inside inside' same
  have four : (4 : UInt8).toNat = 4 := rfl
  have firstByte : position < first.size ∧ other < second.size ∧
      byteAt second other = byteAt first position := by
    obtain width | width := parcelWidth_cases first (Int64.ofNat position)
    · have two : (2 : UInt8).toNat = 2 := rfl
      rw [width, two] at inside inside' same
      exact ⟨by omega, by omega, byteAt_of_slice_eq same⟩
    · rw [width, four] at inside inside' same
      exact ⟨by omega, by omega, byteAt_of_slice_eq same⟩
  obtain ⟨within, within', byte⟩ := firstByte
  have width (present : Present first (Int64.ofNat position))
      (standard : Standard first (Int64.ofNat position)) :
      (parcelWidth first (Int64.ofNat position)).toNat = 4 :=
    congrArg UInt8.toNat (if_pos ⟨present, standard⟩)
  refine decode_congr ?_ (fun _ => ?_) (fun present standard => ?_) fun present standard => ?_
  · rw [present_ofNat_iff small, present_ofNat_iff small']
    exact iff_of_true within' within
  · rw [Standard, Standard, start, start', byte]
  · rw [width present standard] at inside inside'
    rw [start, start']
    exact iff_of_true inside' inside
  · rw [width present standard] at same
    rw [start, start']
    exact congrArg (fun bytes => BitVec.ofNat 32 (Bytes.littleEndian bytes)) same

/-- Behind a buffer decoding finds what it finds in the rest alone, up to the address. That includes
the words that are cut off, since the buffers end together. -/
theorem decode_append_right (first second : ByteArray) {position : Nat}
    (small : first.size + position < 2 ^ 63) :
    decode (first ++ second) (Int64.ofNat (first.size + position)) =
      { decode second (Int64.ofNat position) with
        address := Int64.ofNat (first.size + position) } := by
  have small' : position < 2 ^ 63 := by omega
  have start : (Int64.ofNat position).toNatClampNeg = position :=
    Int64.toNatClampNeg_ofNat_of_lt small'
  have start' : (Int64.ofNat (first.size + position)).toNatClampNeg = first.size + position :=
    Int64.toNatClampNeg_ofNat_of_lt small
  have size : (first ++ second).size = first.size + second.size := ByteArray.size_append
  refine decode_congr ?_ (fun _ => ?_) (fun _ _ => ?_) fun _ _ => ?_
  · rw [present_ofNat_iff small, present_ofNat_iff small', size]
    exact Nat.add_lt_add_iff_left
  · have byte : byteAt (first ++ second) (first.size + position) = byteAt second position :=
      byteAt_of_slice_eq (Bytes.slice_append_right first second position 1)
    rw [Standard, Standard, start, start', byte]
  · rw [start, start', size]
    omega
  · rw [start, start']
    exact congrArg (fun bytes => BitVec.ofNat 32 (Bytes.littleEndian bytes))
      (Bytes.slice_append_right first second position 4)

end Hart
