/-
This file reads and replaces runs of bytes inside a byte buffer. Both operations are total: beyond
the end of the buffer there is nothing to replace and every byte reads as zero. Callers that must
not reach beyond the end check the bounds first, so the totality is never observed in an answer.
-/

namespace Hart.Bytes

/-- The byte at an index, zero beyond the end. -/
def byteAt (buffer : ByteArray) (index : Nat) : UInt8 :=
  if inside : index < buffer.size then buffer[index] else 0

/-- The bytes from `start` on, `count` of them. -/
def slice (buffer : ByteArray) (start : Nat) : (count : Nat) → List UInt8
  | 0 => []
  | count + 1 => byteAt buffer start :: slice buffer (start + 1) count

/-- The buffer with the bytes from `start` on replaced. -/
def overwrite (buffer : ByteArray) (start : Nat) : List UInt8 → ByteArray
  | [] => buffer
  | byte :: rest => overwrite (buffer.set! start byte) (start + 1) rest

/-- A buffer of zero bytes. -/
def zeros (size : Nat) : ByteArray :=
  Nat.repeat (fun buffer => buffer.push 0) size (ByteArray.emptyWithCapacity size)

/-! ### What the operations do to each byte -/

@[simp] theorem length_slice (buffer : ByteArray) (start count : Nat) :
    (slice buffer start count).length = count := by
  induction count generalizing start with
  | zero => rfl
  | succ count inductionHypothesis => simp [slice, inductionHypothesis]

@[simp] theorem size_overwrite (buffer : ByteArray) (start : Nat) (bytes : List UInt8) :
    (overwrite buffer start bytes).size = buffer.size := by
  induction bytes generalizing buffer start with
  | nil => rfl
  | cons byte rest inductionHypothesis => simp [overwrite, inductionHypothesis]

@[simp] theorem size_zeros (size : Nat) : (zeros size).size = size := by
  unfold zeros
  suffices pushes : ∀ buffer : ByteArray,
      (Nat.repeat (fun buffer => buffer.push 0) size buffer).size = buffer.size + size by
    rw [pushes]
    exact Nat.zero_add size
  intro buffer
  induction size with
  | zero => rfl
  | succ size inductionHypothesis =>
    rw [Nat.repeat, ByteArray.size_push, inductionHypothesis]
    omega

/-- Buffers are told apart by their sizes and their bytes. -/
theorem buffer_ext {first second : ByteArray} (sizes : first.size = second.size)
    (bytes : ∀ index, byteAt first index = byteAt second index) : first = second := by
  refine ByteArray.ext_getElem sizes fun index inside inside' => ?_
  have equal := bytes index
  simpa [byteAt, inside, inside'] using equal

theorem byteAt_of_size_le {buffer : ByteArray} {index : Nat} (beyond : buffer.size ≤ index) :
    byteAt buffer index = 0 := by
  simp [byteAt, Nat.not_lt.mpr beyond]

theorem byteAt_set (buffer : ByteArray) (position index : Nat) (byte : UInt8)
    (inside : position < buffer.size) :
    byteAt (buffer.set! position byte) index =
      if index = position then byte else byteAt buffer index := by
  by_cases same : index = position
  · subst same
    simp [byteAt, inside]
  · by_cases bound : index < buffer.size
    · simp [byteAt, bound, same, Ne.symm same]
    · simp [byteAt, bound, same]

theorem byteAt_push_zero (buffer : ByteArray) (index : Nat) :
    byteAt (buffer.push 0) index = byteAt buffer index := by
  by_cases inside : index < buffer.size
  · have inside' : index < buffer.size + 1 := by omega
    have within : index < buffer.data.size := inside
    simp [byteAt, inside, inside', ByteArray.getElem_eq_getElem_data, Array.getElem_push_lt within]
  · rw [byteAt_of_size_le (Nat.not_lt.mp inside)]
    by_cases last : index < (buffer.push 0).size
    · have position : index = buffer.size := by simp at last; omega
      subst position
      simp [byteAt, ByteArray.getElem_eq_getElem_data, ← ByteArray.size_data]
    · exact byteAt_of_size_le (Nat.not_lt.mp last)

@[simp] theorem byteAt_zeros (size index : Nat) : byteAt (zeros size) index = 0 := by
  unfold zeros
  suffices pushes : ∀ buffer : ByteArray,
      byteAt (Nat.repeat (fun buffer => buffer.push 0) size buffer) index = byteAt buffer index by
    rw [pushes]
    exact byteAt_of_size_le (Nat.zero_le index)
  intro buffer
  induction size with
  | zero => rfl
  | succ size inductionHypothesis => rw [Nat.repeat, byteAt_push_zero, inductionHypothesis]

/-- Replacing bytes changes those bytes and no others. -/
theorem byteAt_overwrite (buffer : ByteArray) (start index : Nat) (bytes : List UInt8)
    (inside : start + bytes.length ≤ buffer.size) :
    byteAt (overwrite buffer start bytes) index =
      if start ≤ index ∧ index < start + bytes.length then bytes[index - start]?.getD 0
      else byteAt buffer index := by
  induction bytes generalizing buffer start with
  | nil =>
    have outside : ¬(start ≤ index ∧ index < start) := by omega
    simp [overwrite, outside]
  | cons byte rest inductionHypothesis =>
    simp only [List.length_cons] at inside
    rw [overwrite, inductionHypothesis _ _ (by simp; omega), byteAt_set _ _ _ _ (by omega)]
    by_cases first : index = start
    · subst first
      have later : ¬(index + 1 ≤ index ∧ index < index + 1 + rest.length) := by omega
      have within : index ≤ index ∧ index < index + (byte :: rest).length := by
        simp only [List.length_cons]
        omega
      rw [if_neg later, if_pos within, if_pos rfl, Nat.sub_self]
      rfl
    · by_cases later : start + 1 ≤ index ∧ index < start + 1 + rest.length
      · have position : index - start = (index - (start + 1)) + 1 := by omega
        have within : start ≤ index ∧ index < start + (byte :: rest).length := by
          simp only [List.length_cons]
          omega
        rw [if_pos later, if_pos within, position, List.getElem?_cons_succ]
      · have without : ¬(start ≤ index ∧ index < start + (byte :: rest).length) := by
          simp only [List.length_cons]
          omega
        rw [if_neg later, if_neg without, if_neg first]

theorem getElem?_slice (buffer : ByteArray) (start count index : Nat) :
    (slice buffer start count)[index]? =
      if index < count then some (byteAt buffer (start + index)) else none := by
  induction count generalizing start index with
  | zero => simp [slice]
  | succ count inductionHypothesis =>
    cases index with
    | zero => simp [slice]
    | succ index =>
      simp [slice, inductionHypothesis, Nat.add_comm, Nat.add_left_comm]

/-- Runs of bytes are told apart by their bytes. -/
theorem slice_congr {first second : ByteArray} {start other count : Nat}
    (bytes : ∀ index < count, byteAt first (start + index) = byteAt second (other + index)) :
    slice first start count = slice second other count := by
  refine List.ext_getElem? fun index => ?_
  rw [getElem?_slice, getElem?_slice]
  by_cases bound : index < count
  · rw [if_pos bound, if_pos bound, bytes index bound]
  · rw [if_neg bound, if_neg bound]

/-- Replaced bytes read back. -/
theorem slice_overwrite_self (buffer : ByteArray) (start : Nat) (bytes : List UInt8)
    (inside : start + bytes.length ≤ buffer.size) :
    slice (overwrite buffer start bytes) start bytes.length = bytes := by
  refine List.ext_getElem? fun index => ?_
  rw [getElem?_slice]
  by_cases bound : index < bytes.length
  · have within : start ≤ start + index ∧ start + index < start + bytes.length := by omega
    simp [bound, byteAt_overwrite _ _ _ _ inside, within]
  · simp [bound]

/-- Replacements that do not meet may come in either order. -/
theorem overwrite_comm (buffer : ByteArray) (start other : Nat) (first second : List UInt8)
    (inside : start + first.length ≤ buffer.size) (inside' : other + second.length ≤ buffer.size)
    (disjoint : start + first.length ≤ other ∨ other + second.length ≤ start) :
    overwrite (overwrite buffer start first) other second =
      overwrite (overwrite buffer other second) start first := by
  refine buffer_ext (by simp) fun index => ?_
  rw [byteAt_overwrite _ _ _ _ (by rwa [size_overwrite]), byteAt_overwrite _ _ _ _ inside,
    byteAt_overwrite _ _ _ _ (by rwa [size_overwrite]), byteAt_overwrite _ _ _ _ inside']
  by_cases within : start ≤ index ∧ index < start + first.length
  · have without : ¬(other ≤ index ∧ index < other + second.length) := by omega
    rw [if_neg without, if_pos within, if_pos within]
  · rw [if_neg within, if_neg within]

/-! ### Buffers one behind the other -/

theorem byteAt_append (first second : ByteArray) (index : Nat) :
    byteAt (first ++ second) index =
      if index < first.size then byteAt first index
      else byteAt second (index - first.size) := by
  unfold byteAt
  by_cases before : index < first.size
  · have inside : index < (first ++ second).size := by
      rw [ByteArray.size_append]
      omega
    rw [dif_pos inside, if_pos before, dif_pos before]
    exact ByteArray.getElem_append_left before
  · rw [if_neg before]
    by_cases inside : index < (first ++ second).size
    · have behind : index - first.size < second.size := by
        rw [ByteArray.size_append] at inside
        omega
      rw [dif_pos inside, dif_pos behind]
      exact ByteArray.getElem_append_right (Nat.not_lt.mp before)
    · have beyond : ¬index - first.size < second.size := by
        rw [ByteArray.size_append] at inside
        omega
      rw [dif_neg inside, dif_neg beyond]

/-- A window inside the first buffer does not see the second. -/
theorem slice_append_left (first second : ByteArray) (start count : Nat)
    (inside : start + count ≤ first.size) :
    slice (first ++ second) start count = slice first start count := by
  refine slice_congr fun index bound => ?_
  have before : start + index < first.size := by omega
  rw [byteAt_append, if_pos before]

/-- The second buffer is seen from where the first one ends. -/
theorem slice_append_right (first second : ByteArray) (start count : Nat) :
    slice (first ++ second) (first.size + start) count = slice second start count := by
  refine slice_congr fun index _ => ?_
  have behind : ¬first.size + start + index < first.size := by omega
  rw [byteAt_append, if_neg behind, Nat.add_assoc, Nat.add_sub_cancel_left]

/-- Bytes replaced inside the first buffer leave the second alone. -/
theorem overwrite_append_left (first second : ByteArray) (start : Nat) (bytes : List UInt8)
    (inside : start + bytes.length ≤ first.size) :
    overwrite (first ++ second) start bytes = overwrite first start bytes ++ second := by
  have inside' : start + bytes.length ≤ (first ++ second).size := by
    rw [ByteArray.size_append]
    omega
  refine buffer_ext (by simp) fun index => ?_
  rw [byteAt_overwrite _ _ _ _ inside', byteAt_append, byteAt_append, size_overwrite,
    byteAt_overwrite _ _ _ _ inside]
  by_cases within : start ≤ index ∧ index < start + bytes.length
  · have before : index < first.size := by omega
    rw [if_pos within, if_pos before, if_pos within]
  · rw [if_neg within, if_neg within]

theorem zeros_append_zeros (first second : Nat) :
    zeros first ++ zeros second = zeros (first + second) := by
  refine buffer_ext (by simp) fun index => ?_
  rw [byteAt_append]
  simp

end Hart.Bytes
