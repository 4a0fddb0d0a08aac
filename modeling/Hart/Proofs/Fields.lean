/-
This file puts instruction words together from their fields. The formats R, I, S and B cut a word at
the same five places, so one operation serves all four: six fields side by side. The formats U and J
keep the destination and the opcode and leave twenty bits above them. Every field that the decoder
cuts out of a word is a run of bits of these, and cutting is inverse to putting together.
-/

import Hart.Encoding.Decode

namespace Hart

namespace Word

/-- The word with the given fields at the places where the formats R, I, S and B have them. -/
def ofFields (funct7 : BitVec 7) (rs2 rs1 : BitVec 5) (funct3 : BitVec 3) (rd : BitVec 5)
    (low : BitVec 7) : Word :=
  funct7 ++ rs2 ++ rs1 ++ funct3 ++ rd ++ low

/-- The word with the given fields at the places where the formats U and J have them. -/
def ofUpper (upper : BitVec 20) (rd : BitVec 5) (low : BitVec 7) : Word :=
  upper ++ rd ++ low

/-- The low seven bits: the major opcode and the two bits that mark a word of standard length. -/
def low (word : Word) : BitVec 7 := word.extractLsb' 0 7

/-! ### A word is made of its fields -/

theorem ofFields_fields (word : Word) :
    ofFields word.funct7 word.rs2 word.rs1 word.funct3 word.rd word.low = word := by
  unfold ofFields funct7 rs2 rs1 funct3 rd low
  rw [BitVec.extractLsb'_append_extractLsb'_eq_extractLsb' (by decide),
    BitVec.extractLsb'_append_extractLsb'_eq_extractLsb' (by decide),
    BitVec.extractLsb'_append_extractLsb'_eq_extractLsb' (by decide),
    BitVec.extractLsb'_append_extractLsb'_eq_extractLsb' (by decide),
    BitVec.extractLsb'_append_extractLsb'_eq_extractLsb' (by decide)]
  exact BitVec.extractLsb'_eq_self

theorem ofUpper_fields (word : Word) : ofUpper word.upper word.rd word.low = word := by
  unfold ofUpper upper rd low
  rw [BitVec.extractLsb'_append_extractLsb'_eq_extractLsb' (by decide),
    BitVec.extractLsb'_append_extractLsb'_eq_extractLsb' (by decide)]
  exact BitVec.extractLsb'_eq_self

/-! ### The fields of a word put together -/

section Cut

variable (upper7 : BitVec 7) (second first : BitVec 5) (selector : BitVec 3)
  (destination : BitVec 5) (opcode : BitVec 7) (upper20 : BitVec 20)

@[simp] theorem low_ofFields :
    (ofFields upper7 second first selector destination opcode).low = opcode :=
  BitVec.extractLsb'_append_eq_right

@[simp] theorem rd_ofFields :
    (ofFields upper7 second first selector destination opcode).rd = destination := by
  unfold rd ofFields
  rw [BitVec.extractLsb'_append_eq_of_le (by decide)]
  exact BitVec.extractLsb'_append_eq_right

@[simp] theorem funct3_ofFields :
    (ofFields upper7 second first selector destination opcode).funct3 = selector := by
  unfold funct3 ofFields
  rw [BitVec.extractLsb'_append_eq_of_le (by decide),
    BitVec.extractLsb'_append_eq_of_le (by decide)]
  exact BitVec.extractLsb'_append_eq_right

@[simp] theorem rs1_ofFields :
    (ofFields upper7 second first selector destination opcode).rs1 = first := by
  unfold rs1 ofFields
  rw [BitVec.extractLsb'_append_eq_of_le (by decide),
    BitVec.extractLsb'_append_eq_of_le (by decide),
    BitVec.extractLsb'_append_eq_of_le (by decide)]
  exact BitVec.extractLsb'_append_eq_right

@[simp] theorem rs2_ofFields :
    (ofFields upper7 second first selector destination opcode).rs2 = second := by
  unfold rs2 ofFields
  rw [BitVec.extractLsb'_append_eq_of_le (by decide),
    BitVec.extractLsb'_append_eq_of_le (by decide),
    BitVec.extractLsb'_append_eq_of_le (by decide),
    BitVec.extractLsb'_append_eq_of_le (by decide)]
  exact BitVec.extractLsb'_append_eq_right

@[simp] theorem funct7_ofFields :
    (ofFields upper7 second first selector destination opcode).funct7 = upper7 := by
  unfold funct7 ofFields
  rw [BitVec.extractLsb'_append_eq_of_le (by decide),
    BitVec.extractLsb'_append_eq_of_le (by decide),
    BitVec.extractLsb'_append_eq_of_le (by decide),
    BitVec.extractLsb'_append_eq_of_le (by decide)]
  exact BitVec.extractLsb'_append_eq_left

@[simp] theorem low_ofUpper : (ofUpper upper20 destination opcode).low = opcode :=
  BitVec.extractLsb'_append_eq_right

@[simp] theorem rd_ofUpper : (ofUpper upper20 destination opcode).rd = destination := by
  unfold rd ofUpper
  rw [BitVec.extractLsb'_append_eq_of_le (by decide)]
  exact BitVec.extractLsb'_append_eq_right

@[simp] theorem upper_ofUpper : (ofUpper upper20 destination opcode).upper = upper20 := by
  unfold upper ofUpper
  rw [BitVec.extractLsb'_append_eq_of_le (by decide)]
  exact BitVec.extractLsb'_append_eq_left

end Cut

/-! ### The remaining fields as runs of the others -/

/-- Cutting a run of bits out of a longer run. -/
theorem extractLsb'_extractLsb' {width start length offset count : Nat} (bits : BitVec width)
    (inside : offset + count ≤ length) :
    (bits.extractLsb' start length).extractLsb' offset count =
      bits.extractLsb' (start + offset) count := by
  ext index bound
  rw [BitVec.getElem_extractLsb', BitVec.getElem_extractLsb', BitVec.getLsbD_extractLsb',
    decide_eq_true (by omega), Bool.true_and, Nat.add_assoc]

theorem major_eq (word : Word) : word.major = word.low.extractLsb' 2 5 := by
  unfold major low
  rw [extractLsb'_extractLsb' _ (by decide)]

theorem funct6_eq (word : Word) : word.funct6 = word.funct7.extractLsb' 1 6 := by
  unfold funct6 funct7
  rw [extractLsb'_extractLsb' _ (by decide)]

theorem shamt6_eq (word : Word) : word.shamt6 = word.funct7.extractLsb' 0 1 ++ word.rs2 := by
  unfold shamt6 funct7 rs2
  rw [extractLsb'_extractLsb' _ (by decide),
    BitVec.extractLsb'_append_extractLsb'_eq_extractLsb' (by decide)]

theorem immediateI_eq (word : Word) : word.immediateI = word.funct7 ++ word.rs2 := by
  unfold immediateI funct7 rs2
  rw [BitVec.extractLsb'_append_extractLsb'_eq_extractLsb' (by decide)]

theorem immediateS_eq (word : Word) : word.immediateS = word.funct7 ++ word.rd := rfl

theorem immediateB_eq (word : Word) :
    word.immediateB =
      word.funct7.extractLsb' 6 1 ++ word.rd.extractLsb' 0 1 ++ word.funct7.extractLsb' 0 6
        ++ word.rd.extractLsb' 1 4 ++ 0#1 := by
  unfold immediateB funct7 rd
  rw [extractLsb'_extractLsb' _ (by decide),
    extractLsb'_extractLsb' _ (by decide),
    extractLsb'_extractLsb' _ (by decide),
    extractLsb'_extractLsb' _ (by decide)]

theorem immediateJ_eq (word : Word) :
    word.immediateJ =
      word.upper.extractLsb' 19 1 ++ word.upper.extractLsb' 0 8 ++ word.upper.extractLsb' 8 1
        ++ word.upper.extractLsb' 9 10 ++ 0#1 := by
  unfold immediateJ upper
  rw [extractLsb'_extractLsb' _ (by decide),
    extractLsb'_extractLsb' _ (by decide),
    extractLsb'_extractLsb' _ (by decide),
    extractLsb'_extractLsb' _ (by decide)]

/-! ### Words with an immediate -/

/-- A word of format I. -/
def ofI (immediate : BitVec 12) (rs1 : BitVec 5) (funct3 : BitVec 3) (rd : BitVec 5)
    (low : BitVec 7) : Word :=
  ofFields (immediate.extractLsb' 5 7) (immediate.extractLsb' 0 5) rs1 funct3 rd low

/-- A word of format I whose immediate is the amount of a shift below six fixed bits. -/
def ofShift (funct6 amount : BitVec 6) (rs1 : BitVec 5) (funct3 : BitVec 3) (rd : BitVec 5)
    (low : BitVec 7) : Word :=
  ofFields (funct6 ++ amount.extractLsb' 5 1) (amount.extractLsb' 0 5) rs1 funct3 rd low

/-- A word of format S. -/
def ofS (immediate : BitVec 12) (rs2 rs1 : BitVec 5) (funct3 : BitVec 3) (low : BitVec 7) : Word :=
  ofFields (immediate.extractLsb' 5 7) rs2 rs1 funct3 (immediate.extractLsb' 0 5) low

/-- A word of format B. The lowest bit of the offset is not stored. -/
def ofB (offset : BitVec 13) (rs2 rs1 : BitVec 5) (funct3 : BitVec 3) (low : BitVec 7) : Word :=
  ofFields (offset.extractLsb' 12 1 ++ offset.extractLsb' 5 6) rs2 rs1 funct3
    (offset.extractLsb' 1 4 ++ offset.extractLsb' 11 1) low

/-- A word of format J. The lowest bit of the offset is not stored. -/
def ofJ (offset : BitVec 21) (rd : BitVec 5) (low : BitVec 7) : Word :=
  ofUpper
    (offset.extractLsb' 20 1 ++ offset.extractLsb' 1 10 ++ offset.extractLsb' 11 1
      ++ offset.extractLsb' 12 8) rd low

section Cut

variable (immediate : BitVec 12) (upper amount : BitVec 6) (branchOffset : BitVec 13)
  (jumpOffset : BitVec 21) (second first : BitVec 5) (selector : BitVec 3)
  (destination : BitVec 5) (opcode : BitVec 7)

@[simp] theorem rd_ofI : (ofI immediate first selector destination opcode).rd = destination :=
  rd_ofFields _ _ _ _ _ _

@[simp] theorem funct3_ofI :
    (ofI immediate first selector destination opcode).funct3 = selector :=
  funct3_ofFields _ _ _ _ _ _

@[simp] theorem rs1_ofI : (ofI immediate first selector destination opcode).rs1 = first :=
  rs1_ofFields _ _ _ _ _ _

@[simp] theorem rd_ofShift :
    (ofShift upper amount first selector destination opcode).rd = destination :=
  rd_ofFields _ _ _ _ _ _

@[simp] theorem funct3_ofShift :
    (ofShift upper amount first selector destination opcode).funct3 = selector :=
  funct3_ofFields _ _ _ _ _ _

@[simp] theorem rs1_ofShift :
    (ofShift upper amount first selector destination opcode).rs1 = first :=
  rs1_ofFields _ _ _ _ _ _

@[simp] theorem rs1_ofS : (ofS immediate second first selector opcode).rs1 = first :=
  rs1_ofFields _ _ _ _ _ _

@[simp] theorem rs2_ofS : (ofS immediate second first selector opcode).rs2 = second :=
  rs2_ofFields _ _ _ _ _ _

@[simp] theorem rs1_ofB : (ofB branchOffset second first selector opcode).rs1 = first :=
  rs1_ofFields _ _ _ _ _ _

@[simp] theorem rs2_ofB : (ofB branchOffset second first selector opcode).rs2 = second :=
  rs2_ofFields _ _ _ _ _ _

@[simp] theorem rd_ofJ : (ofJ jumpOffset destination opcode).rd = destination :=
  rd_ofUpper _ _ _

end Cut

theorem immediateI_ofI (immediate : BitVec 12) (rs1 : BitVec 5) (funct3 : BitVec 3)
    (rd : BitVec 5) (low : BitVec 7) :
    (ofI immediate rs1 funct3 rd low).immediateI = immediate := by
  unfold ofI
  rw [immediateI_eq, funct7_ofFields, rs2_ofFields]
  exact BitVec.extractLsb'_append_extractLsb'

theorem ofI_immediateI (word : Word) :
    ofI word.immediateI word.rs1 word.funct3 word.rd word.low = word := by
  unfold ofI
  rw [immediateI_eq, BitVec.extractLsb'_append_eq_left, BitVec.extractLsb'_append_eq_right]
  exact ofFields_fields word

theorem funct6_ofShift (funct6 amount : BitVec 6) (rs1 : BitVec 5) (funct3 : BitVec 3)
    (rd : BitVec 5) (low : BitVec 7) :
    (ofShift funct6 amount rs1 funct3 rd low).funct6 = funct6 := by
  unfold ofShift
  rw [funct6_eq, funct7_ofFields]
  exact BitVec.extractLsb'_append_eq_left

theorem shamt6_ofShift (funct6 amount : BitVec 6) (rs1 : BitVec 5) (funct3 : BitVec 3)
    (rd : BitVec 5) (low : BitVec 7) :
    (ofShift funct6 amount rs1 funct3 rd low).shamt6 = amount := by
  unfold ofShift
  rw [shamt6_eq, funct7_ofFields, rs2_ofFields, BitVec.extractLsb'_append_eq_right]
  exact BitVec.extractLsb'_append_extractLsb'

theorem ofShift_shamt6 (word : Word) :
    ofShift word.funct6 word.shamt6 word.rs1 word.funct3 word.rd word.low = word := by
  have upper : word.funct6 ++ word.funct7.extractLsb' 0 1 = word.funct7 := by
    rw [funct6_eq]
    exact BitVec.extractLsb'_append_extractLsb'
  unfold ofShift
  rw [shamt6_eq, BitVec.extractLsb'_append_eq_left, BitVec.extractLsb'_append_eq_right, upper]
  exact ofFields_fields word

theorem immediateS_ofS (immediate : BitVec 12) (rs2 rs1 : BitVec 5) (funct3 : BitVec 3)
    (low : BitVec 7) : (ofS immediate rs2 rs1 funct3 low).immediateS = immediate := by
  unfold ofS
  rw [immediateS_eq, funct7_ofFields, rd_ofFields]
  exact BitVec.extractLsb'_append_extractLsb'

theorem ofS_immediateS (word : Word) :
    ofS word.immediateS word.rs2 word.rs1 word.funct3 word.low = word := by
  unfold ofS
  rw [immediateS_eq, BitVec.extractLsb'_append_eq_left, BitVec.extractLsb'_append_eq_right]
  exact ofFields_fields word

theorem immediateB_ofB (offset : BitVec 13) (even : offset.extractLsb' 0 1 = 0#1)
    (rs2 rs1 : BitVec 5) (funct3 : BitVec 3) (low : BitVec 7) :
    (ofB offset rs2 rs1 funct3 low).immediateB = offset := by
  unfold ofB
  rw [immediateB_eq, funct7_ofFields, rd_ofFields, ← even, BitVec.extractLsb'_append_eq_left,
    BitVec.extractLsb'_append_eq_right, BitVec.extractLsb'_append_eq_left,
    BitVec.extractLsb'_append_eq_right,
    BitVec.extractLsb'_append_extractLsb'_eq_extractLsb' (by decide),
    BitVec.extractLsb'_append_extractLsb'_eq_extractLsb' (by decide),
    BitVec.extractLsb'_append_extractLsb'_eq_extractLsb' (by decide),
    BitVec.extractLsb'_append_extractLsb'_eq_extractLsb' (by decide)]
  exact BitVec.extractLsb'_eq_self

theorem ofB_immediateB (word : Word) :
    ofB word.immediateB word.rs2 word.rs1 word.funct3 word.low = word := by
  have sign : word.immediateB.extractLsb' 12 1 = word.funct7.extractLsb' 6 1 := by
    rw [immediateB_eq, BitVec.extractLsb'_append_eq_of_le (by decide),
      BitVec.extractLsb'_append_eq_of_le (by decide),
      BitVec.extractLsb'_append_eq_of_le (by decide)]
    exact BitVec.extractLsb'_append_eq_left
  have upper : word.immediateB.extractLsb' 5 6 = word.funct7.extractLsb' 0 6 := by
    rw [immediateB_eq, BitVec.extractLsb'_append_eq_of_le (by decide),
      BitVec.extractLsb'_append_eq_of_le (by decide)]
    exact BitVec.extractLsb'_append_eq_right
  have lower : word.immediateB.extractLsb' 1 4 = word.rd.extractLsb' 1 4 := by
    rw [immediateB_eq, BitVec.extractLsb'_append_eq_of_le (by decide)]
    exact BitVec.extractLsb'_append_eq_right
  have moved : word.immediateB.extractLsb' 11 1 = word.rd.extractLsb' 0 1 := by
    rw [immediateB_eq, BitVec.extractLsb'_append_eq_of_le (by decide),
      BitVec.extractLsb'_append_eq_of_le (by decide),
      BitVec.extractLsb'_append_eq_of_le (by decide)]
    exact BitVec.extractLsb'_append_eq_right
  have funct7 : word.funct7.extractLsb' 6 1 ++ word.funct7.extractLsb' 0 6 = word.funct7 :=
    BitVec.extractLsb'_append_extractLsb'
  have rd : word.rd.extractLsb' 1 4 ++ word.rd.extractLsb' 0 1 = word.rd :=
    BitVec.extractLsb'_append_extractLsb'
  unfold ofB
  rw [sign, upper, lower, moved, funct7, rd]
  exact ofFields_fields word

theorem immediateJ_ofJ (offset : BitVec 21) (even : offset.extractLsb' 0 1 = 0#1) (rd : BitVec 5)
    (low : BitVec 7) : (ofJ offset rd low).immediateJ = offset := by
  generalize whole :
    offset.extractLsb' 20 1 ++ offset.extractLsb' 1 10 ++ offset.extractLsb' 11 1
      ++ offset.extractLsb' 12 8 = upper
  have sign : upper.extractLsb' 19 1 = offset.extractLsb' 20 1 := by
    rw [← whole, BitVec.extractLsb'_append_eq_of_le (by decide),
      BitVec.extractLsb'_append_eq_of_le (by decide)]
    exact BitVec.extractLsb'_append_eq_left
  have high : upper.extractLsb' 0 8 = offset.extractLsb' 12 8 := by
    rw [← whole]
    exact BitVec.extractLsb'_append_eq_right
  have moved : upper.extractLsb' 8 1 = offset.extractLsb' 11 1 := by
    rw [← whole, BitVec.extractLsb'_append_eq_of_le (by decide)]
    exact BitVec.extractLsb'_append_eq_right
  have lower : upper.extractLsb' 9 10 = offset.extractLsb' 1 10 := by
    rw [← whole, BitVec.extractLsb'_append_eq_of_le (by decide),
      BitVec.extractLsb'_append_eq_of_le (by decide)]
    exact BitVec.extractLsb'_append_eq_right
  unfold ofJ
  rw [whole, immediateJ_eq, upper_ofUpper, sign, high, moved, lower, ← even,
    BitVec.extractLsb'_append_extractLsb'_eq_extractLsb' (by decide),
    BitVec.extractLsb'_append_extractLsb'_eq_extractLsb' (by decide),
    BitVec.extractLsb'_append_extractLsb'_eq_extractLsb' (by decide),
    BitVec.extractLsb'_append_extractLsb'_eq_extractLsb' (by decide)]
  exact BitVec.extractLsb'_eq_self

theorem ofJ_immediateJ (word : Word) : ofJ word.immediateJ word.rd word.low = word := by
  have sign : word.immediateJ.extractLsb' 20 1 = word.upper.extractLsb' 19 1 := by
    rw [immediateJ_eq, BitVec.extractLsb'_append_eq_of_le (by decide),
      BitVec.extractLsb'_append_eq_of_le (by decide),
      BitVec.extractLsb'_append_eq_of_le (by decide)]
    exact BitVec.extractLsb'_append_eq_left
  have lower : word.immediateJ.extractLsb' 1 10 = word.upper.extractLsb' 9 10 := by
    rw [immediateJ_eq, BitVec.extractLsb'_append_eq_of_le (by decide)]
    exact BitVec.extractLsb'_append_eq_right
  have moved : word.immediateJ.extractLsb' 11 1 = word.upper.extractLsb' 8 1 := by
    rw [immediateJ_eq, BitVec.extractLsb'_append_eq_of_le (by decide),
      BitVec.extractLsb'_append_eq_of_le (by decide)]
    exact BitVec.extractLsb'_append_eq_right
  have high : word.immediateJ.extractLsb' 12 8 = word.upper.extractLsb' 0 8 := by
    rw [immediateJ_eq, BitVec.extractLsb'_append_eq_of_le (by decide),
      BitVec.extractLsb'_append_eq_of_le (by decide),
      BitVec.extractLsb'_append_eq_of_le (by decide)]
    exact BitVec.extractLsb'_append_eq_right
  unfold ofJ
  rw [sign, lower, moved, high, BitVec.extractLsb'_append_extractLsb'_eq_extractLsb' (by decide),
    BitVec.extractLsb'_append_extractLsb'_eq_extractLsb' (by decide),
    BitVec.extractLsb'_append_extractLsb'_eq_extractLsb' (by decide), BitVec.extractLsb'_eq_self]
  exact ofUpper_fields word

end Word

/-! ### The low bits that select an opcode -/

/-- The low seven bits of the words of an opcode. -/
def Opcode.bits : Opcode → BitVec 7
  | load => 0b0000011
  | miscMem => 0b0001111
  | opImm => 0b0010011
  | auipc => 0b0010111
  | opImm32 => 0b0011011
  | store => 0b0100011
  | op => 0b0110011
  | lui => 0b0110111
  | op32 => 0b0111011
  | branch => 0b1100011
  | jalr => 0b1100111
  | jal => 0b1101111
  | system => 0b1110011

/-- The two bits that mark a word of standard length. -/
def Word.isStandard (word : Word) : Prop :=
  word.toNat % 4 = 3

instance (word : Word) : Decidable word.isStandard :=
  inferInstanceAs (Decidable (word.toNat % 4 = 3))

theorem Word.isStandard_iff (word : Word) :
    word.isStandard ↔ word.low.extractLsb' 0 2 = 0b11 := by
  unfold isStandard low
  rw [extractLsb'_extractLsb' _ (by decide), BitVec.toNat_eq, BitVec.extractLsb'_toNat]
  rfl

theorem Word.opcode?_of_low {word : Word} {opcode : Opcode} (low : word.low = opcode.bits) :
    word.opcode? = some opcode := by
  unfold Word.opcode?
  rw [Word.major_eq, low]
  cases opcode <;> rfl

theorem Word.isStandard_of_low {word : Word} {opcode : Opcode} (low : word.low = opcode.bits) :
    word.isStandard := by
  rw [Word.isStandard_iff, low]
  cases opcode <;> rfl

/-- The bits of a standard word with a given opcode are the bits of the opcode. -/
theorem Word.low_of_opcode? {word : Word} {opcode : Opcode} (standard : word.isStandard)
    (found : word.opcode? = some opcode) : word.low = opcode.bits := by
  have major : word.low.extractLsb' 2 5 = BitVec.ofNat 5 opcode.value := by
    rw [← Word.major_eq, Opcode.value_of_ofNat? found, BitVec.ofNat_toNat, BitVec.setWidth_eq]
  have quadrant := word.isStandard_iff.mp standard
  have whole : word.low.extractLsb' 2 5 ++ word.low.extractLsb' 0 2 = word.low :=
    BitVec.extractLsb'_append_extractLsb'
  rw [← whole, major, quadrant]
  cases opcode <;> rfl

end Hart
