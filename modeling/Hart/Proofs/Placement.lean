/-
This file reads back what was put into a buffer: bytes, numbers in either byte order, and names that
end at a zero byte. Everything is a matter of where bytes stand. Parts that were put together one
behind the other stand one behind the other, so what is known of a whole buffer comes down to its
parts without any arithmetic on its contents.
-/

import Mathlib
import Hart.Elf.NameTable

namespace Hart

namespace Bytes

/-! ### Where bytes stand -/

/-- Whether bytes stand in a buffer from a position on. -/
def Stands (buffer : ByteArray) (start : Nat) (bytes : List UInt8) : Prop :=
  start + bytes.length ≤ buffer.size ∧ slice buffer start bytes.length = bytes

theorem slice_add (buffer : ByteArray) (start first second : Nat) :
    slice buffer start (first + second) =
      slice buffer start first ++ slice buffer (start + first) second := by
  induction first generalizing start with
  | zero => rw [Nat.zero_add]; rfl
  | succ first inductionHypothesis =>
    rw [Nat.succ_add, slice, inductionHypothesis, Nat.add_right_comm, Nat.add_assoc]
    rfl

/-- The parts of what stands in a buffer stand one behind the other. -/
theorem stands_append_iff {buffer : ByteArray} {start : Nat} {first second : List UInt8} :
    Stands buffer start (first ++ second) ↔
      Stands buffer start first ∧ Stands buffer (start + first.length) second := by
  unfold Stands
  rw [List.length_append, slice_add]
  constructor
  · rintro ⟨inside, equal⟩
    obtain ⟨equal, equal'⟩ := List.append_inj equal (length_slice _ _ _)
    exact ⟨⟨by omega, equal⟩, by omega, equal'⟩
  · rintro ⟨⟨_, equal⟩, inside, equal'⟩
    exact ⟨by omega, by rw [equal, equal']⟩

theorem stands_cons_iff {buffer : ByteArray} {start : Nat} {byte : UInt8} {rest : List UInt8} :
    Stands buffer start (byte :: rest) ↔
      Stands buffer start [byte] ∧ Stands buffer (start + 1) rest := by
  rw [← List.singleton_append, stands_append_iff]
  rfl

theorem Stands.byteAt_eq {buffer : ByteArray} {start : Nat} {byte : UInt8}
    (stands : Stands buffer start [byte]) : byteAt buffer start = byte :=
  List.head_eq_of_cons_eq stands.2

theorem slice_zero_size (buffer : ByteArray) :
    slice buffer 0 buffer.size = buffer.data.toList := by
  refine List.ext_getElem? fun index => ?_
  rw [getElem?_slice, Nat.zero_add, Array.getElem?_toList]
  by_cases inside : index < buffer.size
  · rw [if_pos inside, byteAt, dif_pos inside]
    exact (Array.getElem?_eq_getElem inside).symm
  · rw [if_neg inside]
    exact (Array.getElem?_eq_none (Nat.not_lt.mp inside)).symm

/-- A buffer holds its own bytes from the start on. -/
theorem stands_self (buffer : ByteArray) : Stands buffer 0 buffer.data.toList :=
  ⟨Nat.le_of_eq (Nat.zero_add _), slice_zero_size buffer⟩

theorem stands_toByteArray (bytes : List UInt8) : Stands bytes.toByteArray 0 bytes := by
  have stands := stands_self bytes.toByteArray
  rw [List.toList_data_toByteArray] at stands
  exact stands

/-- What stands in a buffer can be cut out of it. -/
theorem extract_of_stands {buffer : ByteArray} {start : Nat} {bytes : ByteArray}
    (stands : Stands buffer start bytes.data.toList) :
    buffer.extract start (start + bytes.size) = bytes := by
  have length : bytes.data.toList.length = bytes.size := rfl
  obtain ⟨inside, equal⟩ := stands
  rw [length] at inside equal
  refine ByteArray.ext_getElem ?_ fun index bound bound' => ?_
  · rw [ByteArray.size_extract]
    omega
  · have byte : (slice buffer start bytes.size)[index]? = bytes.data.toList[index]? := by
      rw [equal]
    rw [getElem?_slice, if_pos bound', byteAt, dif_pos (by omega), Array.getElem?_toList,
      Array.getElem?_eq_getElem bound'] at byte
    rw [ByteArray.getElem_extract]
    exact Option.some.inj byte

/-- The bytes from a position on, cut out of a buffer. -/
theorem toList_extract {buffer : ByteArray} {start count : Nat}
    (inside : start + count ≤ buffer.size) :
    (buffer.extract start (start + count)).data.toList = slice buffer start count := by
  have size : (buffer.extract start (start + count)).size = count := by
    rw [ByteArray.size_extract]
    omega
  rw [← slice_zero_size, size]
  refine slice_congr fun index bound => ?_
  rw [Nat.zero_add, byteAt, dif_pos (by omega), byteAt, dif_pos (by omega),
    ByteArray.getElem_extract]

/-! ### Numbers -/

/-- The lowest `width` bytes of a number in the given order. -/
def Order.bytes (order : Order) (width value : Nat) : List UInt8 :=
  match order with
  | .little => ofNumber width value
  | .big => (ofNumber width value).reverse

@[simp] theorem Order.length_bytes (order : Order) (width value : Nat) :
    (order.bytes width value).length = width := by
  cases order with
  | little => exact length_ofNumber width value
  | big => exact List.length_reverse.trans (length_ofNumber width value)

theorem littleEndian_lt (bytes : List UInt8) : littleEndian bytes < 256 ^ bytes.length := by
  induction bytes with
  | nil => exact Nat.one_pos
  | cons byte rest inductionHypothesis =>
    have bounded := byte.toNat_lt
    rw [littleEndian, List.length_cons, Nat.pow_succ']
    omega

/-- Bytes write the sum of the bytes, each with the weight of its place. -/
theorem littleEndian_eq_sum (bytes : List UInt8) :
    littleEndian bytes =
      ∑ index ∈ Finset.range bytes.length, (bytes[index]?.getD 0).toNat * 256 ^ index := by
  induction bytes with
  | nil => rfl
  | cons byte rest inductionHypothesis =>
    rw [littleEndian, inductionHypothesis, List.length_cons, Finset.sum_range_succ', Nat.add_comm,
      Finset.mul_sum]
    refine congrArg₂ (· + ·) (Finset.sum_congr rfl fun index _ => ?_) (Nat.mul_one _).symm
    rw [List.getElem?_cons_succ, Nat.pow_succ', Nat.mul_left_comm]

theorem littleEndian_slice (buffer : ByteArray) (start count : Nat) :
    littleEndian (slice buffer start count) =
      ∑ index ∈ Finset.range count, (byteAt buffer (start + index)).toNat * 256 ^ index := by
  rw [littleEndian_eq_sum, length_slice]
  refine Finset.sum_congr rfl fun index member => ?_
  rw [getElem?_slice, if_pos (Finset.mem_range.mp member)]
  rfl

/-- The other way round the weights count from the last byte. -/
theorem bigEndian_slice (buffer : ByteArray) (start count : Nat) :
    bigEndian (slice buffer start count) =
      ∑ index ∈ Finset.range count,
        (byteAt buffer (start + (count - 1 - index))).toNat * 256 ^ index := by
  rw [bigEndian, littleEndian_eq_sum, List.length_reverse, length_slice]
  refine Finset.sum_congr rfl fun index member => ?_
  have inside : index < count := Finset.mem_range.mp member
  rw [List.getElem?_reverse (by rwa [length_slice]), length_slice, getElem?_slice,
    if_pos (by omega)]
  rfl

/-- What fits into the bytes that are written of a number reads back. -/
theorem littleEndian_ofNumber (width value : Nat) :
    littleEndian (ofNumber width value) = value % 256 ^ width := by
  induction width generalizing value with
  | zero => exact (Nat.mod_one value).symm
  | succ width inductionHypothesis =>
    rw [ofNumber, littleEndian, inductionHypothesis, Nat.pow_succ', Nat.mod_mul]
    exact congrArg (· + _) UInt8.toNat_ofNat'

/-- A number that has room reads back in the order in which it was written. -/
theorem Order.number_bytes (order : Order) {width value : Nat} (fits : value < 256 ^ width) :
    order.number (order.bytes width value) = value := by
  have forth : littleEndian (ofNumber width value) = value := by
    rw [littleEndian_ofNumber, Nat.mod_eq_of_lt fits]
  cases order with
  | little => exact forth
  | big =>
    show littleEndian (ofNumber width value).reverse.reverse = value
    rw [List.reverse_reverse]
    exact forth

end Bytes

namespace Elf

open Bytes (Stands byteAt stands_append_iff stands_cons_iff)

theorem field_of_stands {order : Bytes.Order} {file : ByteArray} {offset width value : Nat}
    (stands : Stands file offset (order.bytes width value)) (fits : value < 256 ^ width) :
    field order file offset width = value := by
  have read := stands.2
  rw [Bytes.Order.length_bytes] at read
  rw [field, read, Bytes.Order.number_bytes order fits]

theorem field_lt (order : Bytes.Order) (file : ByteArray) (offset width : Nat) :
    field order file offset width < 256 ^ width := by
  have bounded := Bytes.littleEndian_lt (Bytes.slice file offset width)
  have bounded' := Bytes.littleEndian_lt (Bytes.slice file offset width).reverse
  rw [Bytes.length_slice] at bounded
  rw [List.length_reverse, Bytes.length_slice] at bounded'
  cases order with
  | little => exact bounded
  | big => exact bounded'

/-! ### Names -/

/-- Where a name ends: behind bytes that are not zero, at a zero byte or where the bytes are used
up. -/
theorem exists_nameEnd (table : NameTable) (position left : Nat) :
    ∃ length ≤ left, table.nameEnd position left = position + length ∧
      (∀ index < length, byteAt table (position + index) ≠ 0) ∧
      (length = left ∨ byteAt table (position + length) = 0) := by
  induction left generalizing position with
  | zero => exact ⟨0, Nat.le_refl 0, rfl, fun index before => absurd before (by omega), .inl rfl⟩
  | succ left inductionHypothesis =>
    by_cases zero : byteAt table position = 0
    · exact ⟨0, Nat.zero_le _, by rw [NameTable.nameEnd, if_pos zero]; rfl,
        fun index before => absurd before (by omega), .inr zero⟩
    · obtain ⟨length, within, last, nonzero, ends⟩ := inductionHypothesis (position + 1)
      refine ⟨length + 1, Nat.succ_le_succ within, ?_, fun index before => ?_, ?_⟩
      · rw [NameTable.nameEnd, if_neg zero, last]
        omega
      · cases index with
        | zero => exact zero
        | succ index =>
          rw [Nat.add_comm index, ← Nat.add_assoc]
          exact nonzero index (Nat.lt_of_succ_lt_succ before)
      · rw [Nat.add_comm length, ← Nat.add_assoc]
        exact ends.imp_left fun all => by omega

/-- There is only one such end. -/
theorem nameEnd_eq {table : NameTable} {position left length : Nat} (within : length ≤ left)
    (nonzero : ∀ index < length, byteAt table (position + index) ≠ 0)
    (ends : length = left ∨ byteAt table (position + length) = 0) :
    table.nameEnd position left = position + length := by
  obtain ⟨other, within', last, nonzero', ends'⟩ := exists_nameEnd table position left
  have same : other = length := by
    rcases Nat.lt_trichotomy other length with before | same | behind
    · exact absurd (ends'.resolve_left (by omega)) (nonzero other before)
    · exact same
    · exact absurd (ends.resolve_left (by omega)) (nonzero' length behind)
  rw [last, same]

/-- A name is found where its bytes stand and a zero byte or the end of the table comes next. -/
theorem name?_eq_some_iff {table : NameTable} {position : Nat} {name : List UInt8}
    (nulFree : 0 ∉ name) (starts : ∀ byte ∈ name.head?, continuesCharacter byte = false) :
    table.name? position = some name ↔
      Stands table position name ∧
        (position + name.length = table.size ∨ byteAt table (position + name.length) = 0) := by
  unfold NameTable.name?
  constructor
  · intro found
    obtain ⟨length, within, last, nonzero, ends⟩ :=
      exists_nameEnd table position (table.size - position)
    obtain ⟨permitted, found⟩ := Option.ite_none_left_eq_some.mp found
    rw [Bool.or_eq_true, not_or, decide_eq_true_eq, Nat.not_lt] at permitted
    have inside : position + length ≤ table.size := by omega
    dsimp only at found
    rw [last, Bytes.toList_extract inside, Option.some.injEq] at found
    have count : name.length = length := by
      rw [← found, Bytes.length_slice]
    rw [count]
    exact ⟨⟨count ▸ inside, count.symm ▸ found⟩, ends.imp_left fun all => by omega⟩
  · rintro ⟨stands, ends⟩
    have inside := stands.1
    have nonzero : ∀ index < name.length, byteAt table (position + index) ≠ 0 := by
      intro index before zero
      have byte := Bytes.getElem?_slice table position name.length index
      rw [stands.2, if_pos before, zero] at byte
      exact nulFree (List.mem_of_getElem? byte)
    have last : table.nameEnd position (table.size - position) = position + name.length :=
      nameEnd_eq (by omega) nonzero (ends.imp_left fun all => by omega)
    have first : continuesCharacter (byteAt table position) = false := by
      cases name with
      | nil =>
        have zero : byteAt table position = 0 :=
          ends.elim (fun all => Bytes.byteAt_of_size_le (Nat.le_of_eq all.symm)) id
        rw [zero]
        rfl
      | cons byte rest =>
        rw [(stands_cons_iff.mp stands).1.byteAt_eq]
        exact starts byte rfl
    have permitted : ¬(decide (table.size < position) ||
        continuesCharacter (byteAt table position)) = true := by
      rw [first, Bool.or_false, decide_eq_true_eq]
      omega
    rw [if_neg permitted]
    dsimp only
    rw [last, Bytes.toList_extract inside, stands.2]

theorem mod_eq_zero_of_ofNat {number : Nat} (zero : (0 : UInt8) = UInt8.ofNat number) :
    number % 256 = 0 := by
  have numbers := congrArg UInt8.toNat zero
  rw [UInt8.toNat_ofNat'] at numbers
  exact numbers.symm

/-- Only one character is written with a zero byte in it. -/
theorem eq_nul_of_zero_mem {character : Char}
    (zero : (0 : UInt8) ∈ String.utf8EncodeChar character) : character = '\x00' := by
  unfold String.utf8EncodeChar at zero
  dsimp only at zero
  by_cases single : character.val.toNat ≤ 0x7f
  · rw [if_pos single] at zero
    have number := mod_eq_zero_of_ofNat (List.mem_singleton.mp zero)
    refine Char.ext (UInt32.toNat_inj.mp ?_)
    show character.val.toNat = 0
    omega
  · -- every byte of a longer encoding has one of its upper bits set
    exfalso
    rw [if_neg single] at zero
    split at zero
    · simp only [List.mem_cons, List.not_mem_nil, or_false] at zero
      rcases zero with zero | zero <;> have number := mod_eq_zero_of_ofNat zero <;> omega
    · split at zero
      · simp only [List.mem_cons, List.not_mem_nil, or_false] at zero
        rcases zero with zero | zero | zero <;> have number := mod_eq_zero_of_ofNat zero <;> omega
      · simp only [List.mem_cons, List.not_mem_nil, or_false] at zero
        rcases zero with zero | zero | zero | zero <;>
          have number := mod_eq_zero_of_ofNat zero <;> omega

theorem zero_not_mem_bytes {name : String} (nulFree : '\x00' ∉ name.toList) :
    (0 : UInt8) ∉ name.toUTF8.data.toList := by
  intro zero
  rw [String.toUTF8_eq_toByteArray, ← String.utf8Encode_toList, List.utf8Encode,
    List.toList_data_toByteArray] at zero
  obtain ⟨character, member, byte⟩ := List.mem_flatMap.mp zero
  exact nulFree (eq_nul_of_zero_mem byte ▸ member)

/-- A first byte of a character does not continue another. -/
theorem continuesCharacter_of_first {byte : UInt8} (first : byte.IsUTF8FirstByte) :
    continuesCharacter byte = false := by
  have all : ∀ value : Fin 256, (UInt8.ofFin value).IsUTF8FirstByte →
      continuesCharacter (UInt8.ofFin value) = false := by decide +kernel
  exact all byte.toFin first

theorem continuesCharacter_of_head (name : String) :
    ∀ byte ∈ name.toUTF8.data.toList.head?, continuesCharacter byte = false := by
  rw [String.toUTF8_eq_toByteArray]
  intro byte member
  have positive : 0 < name.toByteArray.size := by
    rw [List.head?_eq_getElem?] at member
    exact (List.getElem?_eq_some_iff.mp member).1
  have first := name.isValidUTF8.isUTF8FirstByte_getElem_zero positive
  have same : name.toByteArray[0] = byte := by
    rw [List.head?_eq_getElem?, Array.getElem?_toList, Array.getElem?_eq_getElem positive] at member
    exact Option.some.inj member
  rw [same] at first
  exact continuesCharacter_of_first first

/-- A name that stands in a table with a zero byte behind it is found there. -/
theorem name?_of_stands {table : NameTable} {position : Nat} {name : String}
    (nulFree : '\x00' ∉ name.toList)
    (stands : Stands table position (name.toUTF8.data.toList ++ [0])) :
    table.name? position = some name.toUTF8.data.toList := by
  obtain ⟨bytes, nul⟩ := stands_append_iff.mp stands
  exact (name?_eq_some_iff (zero_not_mem_bytes nulFree) (continuesCharacter_of_head name)).mpr
    ⟨bytes, .inr nul.byteAt_eq⟩

end Elf

end Hart
