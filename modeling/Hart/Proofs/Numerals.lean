/-
This file reads back the numbers that texts show. A number in hexadecimal has its digits and nothing
else, so it ends where another character comes next. The digits say which number it is, whether
zeros were put in front of them or not. Blanks in front do not belong to the number, and among
digits they cannot be mistaken for any.
-/

import Mathlib
import Hart.Text.Digits

namespace Hart.Text

/-! ### Where a piece of text ends -/

section Marks

variable {mark : Char} {piece piece' rest rest' : List Char}

/-- A piece of text ends at the first mark that it does not hold. -/
theorem takeWhile_until (without : mark ∉ piece) :
    (piece ++ mark :: rest).takeWhile (· ≠ mark) = piece := by
  have inside : ∀ symbol ∈ piece, decide (symbol ≠ mark) = true :=
    fun symbol member => decide_eq_true fun same => without (same ▸ member)
  rw [List.takeWhile_append_of_pos inside, List.takeWhile_cons_of_neg (by simp), List.append_nil]

theorem dropWhile_until (without : mark ∉ piece) :
    (piece ++ mark :: rest).dropWhile (· ≠ mark) = mark :: rest := by
  have inside : ∀ symbol ∈ piece, decide (symbol ≠ mark) = true :=
    fun symbol member => decide_eq_true fun same => without (same ▸ member)
  rw [List.dropWhile_append_of_pos inside, List.dropWhile_cons_of_neg (by simp)]

/-- So text falls apart at the mark in one way only. -/
theorem eq_of_append_mark (without : mark ∉ piece) (without' : mark ∉ piece')
    (same : piece ++ mark :: rest = piece' ++ mark :: rest') : piece = piece' ∧ rest = rest' := by
  have front := congrArg (List.takeWhile (· ≠ mark)) same
  have back := congrArg (List.dropWhile (· ≠ mark)) same
  rw [takeWhile_until without, takeWhile_until without'] at front
  rw [dropWhile_until without, dropWhile_until without'] at back
  exact ⟨front, (List.cons.inj back).2⟩

end Marks

/-! ### Digits -/

/-- Whether a character is a hexadecimal digit in lower case. -/
def isHexDigit (symbol : Char) : Bool :=
  ('0' ≤ symbol && symbol ≤ '9') || ('a' ≤ symbol && symbol ≤ 'f')

/-- The value of a hexadecimal digit. -/
def hexDigitValue (digit : Char) : Nat :=
  if digit ≤ '9' then digit.toNat - '0'.toNat else digit.toNat - 'a'.toNat + 10

/-- The number that hexadecimal digits write, most significant first. Zeros in front carry no
meaning. -/
def readHex (digits : List Char) : Nat :=
  digits.foldl (fun read digit => 16 * read + hexDigitValue digit) 0

theorem isHexDigit_digitChar :
    ∀ value < 16, isHexDigit (Nat.digitChar value) = true := by decide

theorem hexDigitValue_digitChar :
    ∀ value < 16, hexDigitValue (Nat.digitChar value) = value := by decide

theorem readHex_append_singleton (digits : List Char) (digit : Char) :
    readHex (digits ++ [digit]) = 16 * readHex digits + hexDigitValue digit := by
  unfold readHex
  rw [List.foldl_append]
  rfl

/-! ### Numbers -/

/-- What holds of single digits, and of digits with one more digit behind them, holds of all
numbers. -/
theorem hexDigits_induction {motive : List Char → Nat → Prop}
    (single : ∀ value < 16, motive [Nat.digitChar value] value)
    (further : ∀ digits value, motive digits value → ∀ last < 16,
      motive (digits ++ [Nat.digitChar last]) (16 * value + last))
    (value : Nat) : motive (hexDigits value) value := by
  induction value using Nat.strongRecOn with
  | ind value inductionHypothesis =>
    by_cases small : value < 16
    · have digits : hexDigits value = [Nat.digitChar value] := Nat.toDigits_of_lt_base small
      rw [digits]
      exact single value small
    · have large : 16 ≤ value := Nat.not_lt.mp small
      have smaller : value / 16 < value := Nat.div_lt_self (by omega) (by decide)
      have last : value % 16 < 16 := Nat.mod_lt value (by decide)
      have digits : hexDigits value = hexDigits (value / 16) ++ [Nat.digitChar (value % 16)] :=
        Nat.toDigits_of_base_le (by decide) large
      have longer := further _ _ (inductionHypothesis _ smaller) _ last
      rw [Nat.div_add_mod] at longer
      rw [digits]
      exact longer

/-- The digits of a number read back. -/
theorem readHex_hexDigits (value : Nat) : readHex (hexDigits value) = value := by
  refine hexDigits_induction (motive := fun digits value => readHex digits = value) ?single
    ?further value
  case single =>
    intro value small
    exact (Nat.zero_add _).trans (hexDigitValue_digitChar value small)
  case further =>
    intro digits value inductionHypothesis last small
    rw [readHex_append_singleton, inductionHypothesis, hexDigitValue_digitChar last small]

theorem isHexDigit_of_mem {value : Nat} :
    ∀ digit ∈ hexDigits value, isHexDigit digit = true := by
  refine hexDigits_induction (motive := fun digits _ => ∀ digit ∈ digits, isHexDigit digit = true)
    ?single ?further value
  case single =>
    intro value small
    exact List.forall_mem_singleton.mpr (isHexDigit_digitChar value small)
  case further =>
    intro digits value inductionHypothesis last small
    exact List.forall_mem_append.mpr
      ⟨inductionHypothesis, List.forall_mem_singleton.mpr (isHexDigit_digitChar last small)⟩

/-- A character that is no digit is not among the digits of a number. -/
theorem not_mem_hexDigits {symbol : Char} (other : isHexDigit symbol = false) (value : Nat) :
    symbol ∉ hexDigits value := by
  intro member
  rw [isHexDigit_of_mem symbol member] at other
  cases other

theorem hexDigits_injective : Function.Injective hexDigits :=
  Function.LeftInverse.injective readHex_hexDigits

theorem toList_hexLiteral (value : Nat) :
    (hexLiteral value).toList = '0' :: 'x' :: hexDigits value := by
  rw [hexLiteral, String.toList_append]
  exact congrArg ("0x".toList ++ ·) String.toList_ofList

theorem hexLiteral_injective : Function.Injective hexLiteral := by
  intro first second same
  have symbols := congrArg String.toList same
  rw [toList_hexLiteral, toList_hexLiteral] at symbols
  exact hexDigits_injective (List.cons.inj (List.cons.inj symbols).2).2

/-! ### Numbers that are filled up -/

theorem readHex_replicate_append (count : Nat) (digits : List Char) :
    readHex (List.replicate count '0' ++ digits) = readHex digits := by
  induction count with
  | zero => rfl
  | succ count inductionHypothesis => exact inductionHypothesis

/-- A number filled up with zeros still reads back. -/
theorem readHex_leftpad (width value : Nat) :
    readHex (List.leftpad width '0' (hexDigits value)) = value :=
  (readHex_replicate_append _ _).trans (readHex_hexDigits value)

theorem isHexDigit_of_mem_leftpad {width value : Nat} :
    ∀ digit ∈ List.leftpad width '0' (hexDigits value), isHexDigit digit = true :=
  List.forall_mem_append.mpr
    ⟨fun _ zero => (List.eq_of_mem_replicate zero).symm ▸ rfl, isHexDigit_of_mem⟩

/-- A number that has room is filled up to the width and not beyond. -/
theorem length_leftpad_hexDigits {width value : Nat} (positive : 0 < width)
    (fits : value < 16 ^ width) :
    (List.leftpad width '0' (hexDigits value)).length = width := by
  have room : (hexDigits value).length ≤ width :=
    (Nat.length_toDigits_le_iff (by decide) positive).mpr fits
  rw [List.leftpad, List.length_append, List.length_replicate, Nat.sub_add_cancel room]

/-- Nothing but blanks and digits stands in a number that is filled up with blanks. -/
theorem not_mem_leftpad_blank {symbol : Char} (other : isHexDigit symbol = false)
    (visible : symbol ≠ ' ') (width value : Nat) :
    symbol ∉ List.leftpad width ' ' (hexDigits value) := by
  intro member
  obtain blank | digit := List.mem_append.mp member
  · exact visible (List.eq_of_mem_replicate blank)
  · exact not_mem_hexDigits other value digit

/-- Without the blanks in front the digits are left. -/
theorem filter_leftpad_blank (width value : Nat) :
    (List.leftpad width ' ' (hexDigits value)).filter (· ≠ ' ') = hexDigits value := by
  have digits : (hexDigits value).filter (· ≠ ' ') = hexDigits value :=
    List.filter_eq_self.mpr fun digit member =>
      decide_eq_true fun blank => not_mem_hexDigits rfl value (blank ▸ member)
  rw [List.leftpad, List.filter_append, digits, List.filter_replicate]
  rfl

end Hart.Text
