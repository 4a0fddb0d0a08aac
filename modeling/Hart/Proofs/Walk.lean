/-
This file proves that a listing takes code apart without losing any of it, and that the parts do not
depend on what stands behind them. The listing goes from offset to offset by the sizes that decoding
reports. Those are two or four, so the walk passes the last byte in the end, and each entry starts
where the one before it ended. Only the last instruction can be longer than what is left of the
code. Its entry has the bytes that there are, and it is never known.

So the place where a listing without such an entry ends is one where another walk may begin. What
follows there is listed as if it stood alone.
-/

import Hart.Listing
import Hart.Proofs.Parcels

namespace Hart

open Bytes (byteAt slice)

namespace Listing

/-! ### Entries -/

theorem Entry.eq_of_parts {first second : Entry} (addresses : first.address = second.address)
    (instructions : first.instruction = second.instruction)
    (bytes : first.bytes = second.bytes) : first = second := by
  cases first
  cases second
  rw [mk.injEq]
  exact ⟨addresses, bytes, instructions⟩

section

variable (code : ByteArray) (base : UInt64) (offset : Nat)

theorem address_entryAt : (entryAt code base offset).address = base + UInt64.ofNat offset := rfl

theorem instruction_entryAt :
    (entryAt code base offset).instruction =
      { decode code (Int64.ofNat offset) with
        address := (entryAt code base offset).address.toInt64 } := rfl

theorem size_entryAt :
    (entryAt code base offset).instruction.size = 2 ∨
      (entryAt code base offset).instruction.size = 4 := by
  show (decode code (Int64.ofNat offset)).size = 2 ∨ (decode code (Int64.ofNat offset)).size = 4
  rw [size_decode]
  exact parcelWidth_cases code (Int64.ofNat offset)

/-- An instruction takes at least one byte, so the walk goes on. -/
theorem toNat_size_pos : 0 < (entryAt code base offset).instruction.size.toNat := by
  obtain two | four := size_entryAt code base offset
  · rw [two]
    decide
  · rw [four]
    decide

theorem toNat_size_le : (entryAt code base offset).instruction.size.toNat ≤ 4 := by
  obtain two | four := size_entryAt code base offset
  · rw [two]
    decide
  · rw [four]
    decide

/-- The bytes of an entry are the next ones of the code, as many as the instruction takes or as
there are. -/
theorem bytes_entryAt :
    (entryAt code base offset).bytes =
      (code.data.toList.drop offset).take (entryAt code base offset).instruction.size.toNat := by
  show (code.extract offset (offset + _)).data.toList = _
  rw [ByteArray.data_extract, Array.toList_extract, List.extract_eq_take_drop,
    Nat.add_sub_cancel_left]
  rfl

theorem length_bytes_entryAt :
    (entryAt code base offset).bytes.length =
      min (entryAt code base offset).instruction.size.toNat (code.size - offset) := by
  rw [bytes_entryAt, List.length_take, List.length_drop]
  rfl

end

variable {code : ByteArray} {base : UInt64} {offset : Nat} {entry : Entry}
  {entries others : List Entry}

/-- An entry has all its bytes if they do not go beyond the code. -/
theorem complete_of_le
    (inside : offset + (entryAt code base offset).instruction.size.toNat ≤ code.size) :
    (entryAt code base offset).bytes.length =
      (entryAt code base offset).instruction.size.toNat := by
  rw [length_bytes_entryAt]
  omega

theorem le_of_complete (within : offset < code.size)
    (complete : (entryAt code base offset).bytes.length =
      (entryAt code base offset).instruction.size.toNat) :
    offset + (entryAt code base offset).instruction.size.toNat ≤ code.size := by
  rw [length_bytes_entryAt] at complete
  omega

/-- An instruction that the code holds only in part is not known. -/
theorem unknown_of_incomplete (small : code.size < 2 ^ 63) (within : offset < code.size)
    (short : (entryAt code base offset).bytes.length <
      (entryAt code base offset).instruction.size.toNat) :
    (entryAt code base offset).instruction.operation = .unknown := by
  by_contra unknown
  have known : (decode code (Int64.ofNat offset)).operation ≠ .unknown := unknown
  have start : (Int64.ofNat offset).toNatClampNeg = offset :=
    Int64.toNatClampNeg_ofNat_of_lt (by omega)
  obtain ⟨present, standard, inside⟩ := whole_of_decode known
  have size : (entryAt code base offset).instruction.size = 4 :=
    (size_decode code (Int64.ofNat offset)).trans (if_pos ⟨present, standard⟩)
  have four : (4 : UInt8).toNat = 4 := rfl
  rw [start] at inside
  rw [length_bytes_entryAt, size, four] at short
  omega

/-! ### The walk -/

/-- The walk over code from an offset on, with the entries that it lists. It ends once it has passed
the last byte. -/
inductive Walk (code : ByteArray) (base : UInt64) : (offset : Nat) → List Entry → Prop
  | ends {offset : Nat} (passed : code.size ≤ offset) : Walk code base offset []
  | lists {offset : Nat} {entries : List Entry} (inside : offset < code.size)
      (rest : Walk code base (offset + (entryAt code base offset).instruction.size.toNat) entries) :
      Walk code base offset (entryAt code base offset :: entries)

/-- As many rounds as there are bytes left are enough to end the walk. -/
theorem exists_walk (rounds : Nat) :
    ∀ (found : Array Entry) (offset : Nat), code.size ≤ offset + rounds →
      ∃ entries, Walk code base offset entries ∧
        (entriesFrom code base found offset rounds).toList = found.toList ++ entries := by
  -- What carries the induction is the bound: a round takes at least one of the bytes left.
  induction rounds with
  | zero =>
    intro found offset enough
    exact ⟨[], .ends enough, (List.append_nil _).symm⟩
  | succ rounds inductionHypothesis =>
    intro found offset enough
    rw [entriesFrom]
    by_cases inside : offset < code.size
    · have positive := toNat_size_pos code base offset
      obtain ⟨entries, walk, listed⟩ := inductionHypothesis
        (found.push (entryAt code base offset))
        (offset + (entryAt code base offset).instruction.size.toNat) (by omega)
      refine ⟨_, .lists inside walk, ?_⟩
      rw [if_pos inside, listed, Array.toList_push, List.append_assoc]
      rfl
    · rw [if_neg inside]
      exact ⟨[], .ends (Nat.not_lt.mp inside), (List.append_nil _).symm⟩

theorem walk_disassemble (code : ByteArray) (base : UInt64) :
    Walk code base 0 (disassemble code base) := by
  obtain ⟨entries, walk, listed⟩ : ∃ entries, Walk code base 0 entries ∧
      disassemble code base = entries := exists_walk code.size #[] 0 (Nat.le_add_left _ _)
  rw [listed]
  exact walk

namespace Walk

/-- There is only one way to walk. -/
theorem unique (walk : Walk code base offset entries) (other : Walk code base offset others) :
    entries = others := by
  induction walk generalizing others with
  | ends passed =>
    cases other with
    | ends => rfl
    | lists inside => exact absurd inside (Nat.not_lt.mpr passed)
  | lists inside rest inductionHypothesis =>
    cases other with
    | ends passed => exact absurd inside (Nat.not_lt.mpr passed)
    | lists _ rest' => rw [inductionHypothesis rest']

/-- The entries of a walk hold what there is from its offset on. -/
theorem flatMap_bytes (walk : Walk code base offset entries) :
    entries.flatMap Entry.bytes = code.data.toList.drop offset := by
  induction walk with
  | ends passed => exact (List.drop_eq_nil_of_le passed).symm
  | lists inside rest inductionHypothesis =>
    rw [List.flatMap_cons, inductionHypothesis, bytes_entryAt, ← List.drop_drop,
      List.take_append_drop]

/-- Where there is another entry, there is a byte for it. -/
theorem lt_size (walk : Walk code base offset entries) (more : entries ≠ []) :
    offset < code.size := by
  cases walk with
  | ends => exact absurd rfl more
  | lists inside => exact inside

/-- An entry stands behind the bytes of the entries before it, and it has all its bytes unless it is
the last. -/
theorem stands (walk : Walk code base offset entries) :
    ∀ before after, entries = before ++ entry :: after →
      let position := offset + (before.flatMap Entry.bytes).length
      position < code.size ∧ entry = entryAt code base position ∧
        (after ≠ [] → entry.bytes.length = entry.instruction.size.toNat) := by
  induction walk with
  | ends =>
    intro before after split
    exact absurd split.symm (List.append_ne_nil_of_right_ne_nil _ (List.cons_ne_nil _ _))
  | lists inside rest inductionHypothesis =>
    intro before after split
    cases before with
    | nil =>
      obtain ⟨rfl, rfl⟩ := List.cons.inj split
      exact ⟨inside, rfl, fun more => complete_of_le (rest.lt_size more).le⟩
    | cons first before =>
      obtain ⟨rfl, rfl⟩ := List.cons.inj split
      obtain ⟨within, place, complete⟩ := inductionHypothesis before after rfl
      have more : before ++ entry :: after ≠ [] :=
        List.append_ne_nil_of_right_ne_nil _ (List.cons_ne_nil _ _)
      have length := complete_of_le (rest.lt_size more).le
      rw [List.flatMap_cons, List.length_append, length, ← Nat.add_assoc]
      exact ⟨within, place, complete⟩

end Walk

/-- Every entry of a listing is the one at some offset of the code. -/
theorem exists_position_of_mem (member : entry ∈ disassemble code base) :
    ∃ position < code.size, entry = entryAt code base position := by
  obtain ⟨before, after, split⟩ := List.append_of_mem member
  obtain ⟨within, place, -⟩ := (walk_disassemble code base).stands before after split
  exact ⟨_, within, place⟩

end Listing

open Listing

/-- A listing takes code apart. The walk over the code ends, and there is only one listing that it
can end with. The bytes of the entries, put together, are the code. Every entry has a byte; it
stands where the bytes before it end, counted from the base and wrapping around, and so does its
instruction. Its size is two or four, and it has as many bytes as that unless it is the last one,
which may have fewer. One with fewer is not known, in a buffer that a signed number of 64 bits can
count. -/
theorem disassemble_partitions (code : ByteArray) (base : UInt64) :
    (Walk code base 0 (disassemble code base) ∧
        ∀ entries, Walk code base 0 entries → entries = disassemble code base) ∧
      (disassemble code base).flatMap Entry.bytes = code.data.toList ∧
      ∀ (before : List Entry) (entry : Entry) (after : List Entry),
        disassemble code base = before ++ entry :: after →
        0 < entry.bytes.length ∧
          entry.address.toNat =
            (base.toNat + (before.flatMap Entry.bytes).length) % 2 ^ 64 ∧
          entry.instruction.address = entry.address.toInt64 ∧
          (entry.instruction.size = 2 ∨ entry.instruction.size = 4) ∧
          (after ≠ [] → entry.bytes.length = entry.instruction.size.toNat) ∧
          entry.bytes.length ≤ entry.instruction.size.toNat ∧
          (code.size < 2 ^ 63 → entry.bytes.length < entry.instruction.size.toNat →
            entry.instruction.operation = .unknown) := by
  have walk := walk_disassemble code base
  refine ⟨⟨walk, fun entries other => other.unique walk⟩, walk.flatMap_bytes,
    fun before entry after split => ?_⟩
  obtain ⟨within, rfl, complete⟩ := walk.stands before after split
  rw [Nat.zero_add] at within complete ⊢
  have length := length_bytes_entryAt code base (before.flatMap Entry.bytes).length
  have positive := toNat_size_pos code base (before.flatMap Entry.bytes).length
  refine ⟨by omega, ?_, rfl, size_entryAt code base _, complete, by omega,
    fun small short => unknown_of_incomplete small within short⟩
  rw [address_entryAt, UInt64.toNat_add, UInt64.toNat_ofNat', Nat.add_mod_mod]

/-- Three entries around the end of the address space: a compressed parcel, a word, and half of
another word. -/
theorem disassemble_partitions_half :
    let code : ByteArray := ⟨#[0x85, 0x00, 0x37, 0xcc, 0x03, 0x00, 0x13, 0x00]⟩
    let base : UInt64 := 0xfffffffffffffffc
    let half := entryAt code base 6
    code.size < 2 ^ 63 ∧
      disassemble code base = [entryAt code base 0, entryAt code base 2] ++ half :: [] ∧
      (entryAt code base 2).bytes.length = 4 ∧ (entryAt code base 2).instruction.size = 4 ∧
      half.address.toNat = 2 ∧ half.instruction.address = 2 ∧ half.bytes = [0x13, 0x00] ∧
      half.bytes.length < half.instruction.size.toNat ∧ half.instruction.operation = .unknown := by
  intro code base half
  have small : code.size < 2 ^ 63 := by decide
  have split : disassemble code base =
      [entryAt code base 0, entryAt code base 2] ++ half :: [] := by decide +kernel
  have short : half.bytes.length < half.instruction.size.toNat := by decide +kernel
  have size : (entryAt code base 2).instruction.size = 4 := by decide +kernel
  obtain ⟨-, -, parts⟩ := disassemble_partitions code base
  obtain ⟨-, -, -, -, complete, -, -⟩ :=
    parts [entryAt code base 0] (entryAt code base 2) [half] split
  obtain ⟨-, place, address, -, -, -, unknown⟩ := parts _ half [] split
  have whole := complete (List.cons_ne_nil half [])
  rw [size] at whole
  have wrapped : half.address.toNat = 2 := place.trans (by decide +kernel)
  exact ⟨small, split, whole, size, wrapped, address.trans (by decide +kernel), by decide +kernel,
    short, unknown small short⟩

/-! ### Code behind other code -/

namespace Listing

variable {first second : ByteArray} {base : UInt64} {position : Nat} {entries more : List Entry}

/-- An entry with all its bytes is the same whatever stands behind the code. -/
theorem entryAt_append_left (small : first.size < 2 ^ 63) (within : position < first.size)
    (complete : (entryAt first base position).bytes.length =
      (entryAt first base position).instruction.size.toNat) :
    entryAt (first ++ second) base position = entryAt first base position := by
  have inside : position + (decode first (Int64.ofNat position)).size.toNat ≤ first.size :=
    le_of_complete within complete
  have size : (first ++ second).size = first.size + second.size := ByteArray.size_append
  have decoded := decode_moved (by omega) (by omega) inside (by omega)
    (Bytes.slice_append_left first second position _ inside)
  have found : (entryAt (first ++ second) base position).instruction =
      (entryAt first base position).instruction := by
    rw [instruction_entryAt, decoded]
    rfl
  refine Entry.eq_of_parts rfl found ?_
  have enough : (entryAt first base position).instruction.size.toNat ≤
      (first.data.toList.drop position).length := by
    rw [List.length_drop]
    exact Nat.le_sub_of_add_le' inside
  rw [bytes_entryAt, bytes_entryAt, found, ByteArray.toList_data_append,
    List.drop_append_of_le_length within.le, List.take_append_of_le_length enough]

/-- The entries behind some code are those of the rest alone, at the address where it stands. -/
theorem entryAt_append_right (small : first.size + position < 2 ^ 63) :
    entryAt (first ++ second) base (first.size + position) =
      entryAt second (base + UInt64.ofNat first.size) position := by
  have address : base + UInt64.ofNat (first.size + position) =
      base + UInt64.ofNat first.size + UInt64.ofNat position := by
    rw [UInt64.ofNat_add, UInt64.add_assoc]
  have decoded := decode_append_right first second small
  have behind : first.data.toList.length ≤ first.size + position := Nat.le_add_right _ _
  have rest : first.size + position - first.data.toList.length = position :=
    Nat.add_sub_cancel_left _ _
  have found : (entryAt (first ++ second) base (first.size + position)).instruction =
      (entryAt second (base + UInt64.ofNat first.size) position).instruction := by
    rw [instruction_entryAt, decoded, address_entryAt, address]
    rfl
  refine Entry.eq_of_parts address found ?_
  rw [bytes_entryAt, bytes_entryAt, found, ByteArray.toList_data_append, List.drop_append,
    List.drop_eq_nil_of_le behind, List.nil_append, rest]

namespace Walk

/-- A walk over code that stands alone is one behind other code too. -/
theorem append_right (small : first.size + second.size < 2 ^ 63) {offset : Nat}
    (walk : Walk second (base + UInt64.ofNat first.size) offset entries) :
    Walk (first ++ second) base (first.size + offset) entries := by
  have size : (first ++ second).size = first.size + second.size := ByteArray.size_append
  induction walk with
  | ends passed => exact .ends (by omega)
  | lists inside rest inductionHypothesis =>
    rw [← entryAt_append_right (by omega)] at inductionHypothesis ⊢
    rw [← Nat.add_assoc] at inductionHypothesis
    exact .lists (by omega) inductionHypothesis

/-- A walk whose entries have all their bytes ends at the last byte and not beyond. There the walk
over the code behind it goes on. -/
theorem append (small : first.size + second.size < 2 ^ 63) {offset : Nat}
    (walk : Walk first base offset entries) (within : offset ≤ first.size)
    (complete : ∀ entry ∈ entries, entry.bytes.length = entry.instruction.size.toNat)
    (rest : Walk second (base + UInt64.ofNat first.size) 0 more) :
    Walk (first ++ second) base offset (entries ++ more) := by
  have size : (first ++ second).size = first.size + second.size := ByteArray.size_append
  induction walk with
  | ends passed =>
    -- The walk has not gone beyond the last byte, so the other one begins right here.
    rw [Nat.le_antisymm within passed]
    exact rest.append_right small
  | @lists offset entries inside _ inductionHypothesis =>
    have whole := complete _ List.mem_cons_self
    have same : entryAt (first ++ second) base offset = entryAt first base offset :=
      entryAt_append_left (by omega) inside whole
    have walk := inductionHypothesis (le_of_complete inside whole)
      fun entry member => complete entry (List.mem_cons_of_mem _ member)
    rw [← same] at walk ⊢
    exact .lists (by omega) walk

end Walk

end Listing

/-- Code may be listed in pieces that end where an instruction ends. If no entry of the first piece
lacks bytes, the listing of two pieces one behind the other is the listing of the first followed by
that of the second, which starts where the first one ends. All of an entry is the same, its address,
its bytes and its whole instruction, also where addresses wrap around and where the second piece
ends in the middle of a word. A signed number of 64 bits has to be able to count the bytes, since
decoding takes its offset as one. -/
theorem disassemble_append (first second : ByteArray) (base : UInt64)
    (small : first.size + second.size < 2 ^ 63)
    (complete : ∀ entry ∈ disassemble first base,
      entry.bytes.length = entry.instruction.size.toNat) :
    disassemble (first ++ second) base =
      disassemble first base ++ disassemble second (base + UInt64.ofNat first.size) :=
  (walk_disassemble (first ++ second) base).unique <|
    (walk_disassemble first base).append small (Nat.zero_le _) complete <|
      walk_disassemble second (base + UInt64.ofNat first.size)

/-- The listing of six bytes up to the end of the address space is complete, and what stands behind
them begins at address zero. -/
theorem disassemble_append_wrapping :
    let first : ByteArray := ⟨#[0x85, 0x00, 0xe3, 0xc6, 0x62, 0xfc]⟩
    let second : ByteArray := ⟨#[0x6f, 0x00, 0x80, 0x03, 0x13]⟩
    let base : UInt64 := 0xfffffffffffffffa
    (first.size + second.size < 2 ^ 63 ∧
        ∀ entry ∈ disassemble first base, entry.bytes.length = entry.instruction.size.toNat) ∧
      disassemble (first ++ second) base = disassemble first base ++ disassemble second 0 ∧
      (disassemble second 0).map Entry.bytes = [[0x6f, 0x00, 0x80, 0x03], [0x13]] := by
  intro first second base
  have small : first.size + second.size < 2 ^ 63 := by decide
  have complete : ∀ entry ∈ disassemble first base,
      entry.bytes.length = entry.instruction.size.toNat := by decide +kernel
  have composed := disassemble_append first second base small complete
  have wraps : base + UInt64.ofNat first.size = 0 := by decide
  rw [wraps] at composed
  exact ⟨⟨small, complete⟩, composed, by decide +kernel⟩

end Hart
