import Mathlib.Algebra.Group.Nat.Defs
import RiscBoard.Memory.Bytes

/-!
Words and their bytes. An access carries the low bytes of a word, and these bytes are all that it
carries: read back in the same order they give the same number.
-/

namespace RiscBoard

namespace AccessSize

/-- The part of a value that an access of this size carries: its low bytes, below zeros. -/
def cut (size : AccessSize) (value : UInt32) : UInt32 :=
  UInt32.ofNat (value.toNat % 2 ^ (8 * size.bytes))

theorem truncate_eq_cut (size : AccessSize) (value : UInt32) :
    size.truncate value = size.cut value := by
  have mask : size.mask.toNat = 2 ^ (8 * size.bytes) - 1 := by cases size <;> rfl
  have small := Nat.lt_of_le_of_lt (Nat.mod_le value.toNat (2 ^ (8 * size.bytes))) value.toNat_lt
  rw [← UInt32.toNat_inj, truncate, UInt32.toNat_and, mask, Nat.and_two_pow_sub_one_eq_mod, cut,
    UInt32.toNat_ofNat_of_lt' small]

end AccessSize

namespace Bytes

theorem littleEndian_lt (byte : Nat → UInt8) (offset count : Nat) :
    littleEndian byte offset count < 2 ^ (8 * count) := by
  induction count generalizing offset with
  | zero => exact Nat.one_pos
  | succ count ih =>
    have low := (byte offset).toNat_lt
    have high := ih (offset + 1)
    rw [littleEndian, Nat.mul_succ, Nat.pow_add]
    omega

/-- What stays of a number without its lowest bytes is the number of the other bytes. -/
theorem littleEndian_shiftRight (byte : Nat → UInt8) (offset : Nat) {distance count : Nat}
    (inside : distance ≤ count) :
    littleEndian byte offset count >>> (8 * distance) =
      littleEndian byte (offset + distance) (count - distance) := by
  induction distance with
  | zero => rfl
  | succ distance ih =>
    have low := (byte (offset + distance)).toNat_lt
    have more : count - distance = count - (distance + 1) + 1 := by omega
    rw [Nat.mul_succ, Nat.shiftRight_add, ih (Nat.le_of_succ_le inside), more, littleEndian,
      Nat.shiftRight_eq_div_pow, ← Nat.add_assoc]
    omega

section Value

variable (byte : Nat → UInt8) (offset : Nat) (size : AccessSize)

theorem toNat_value : (value byte offset size).toNat = littleEndian byte offset size.bytes := by
  have width : 2 ^ (8 * size.bytes) ≤ 2 ^ 32 := by cases size <;> decide
  exact UInt32.toNat_ofNat_of_lt' (Nat.lt_of_lt_of_le (littleEndian_lt byte offset _) width)

theorem cut_value : size.cut (value byte offset size) = value byte offset size := by
  rw [AccessSize.cut, toNat_value, Nat.mod_eq_of_lt (littleEndian_lt byte offset _), value]

theorem wordByte_value {distance : Nat} (inside : distance < size.bytes) :
    wordByte (value byte offset size) distance = byte (offset + distance) := by
  have more : size.bytes - distance = size.bytes - (distance + 1) + 1 := by omega
  have low := (byte (offset + distance)).toNat_lt
  rw [wordByte, toNat_value, littleEndian_shiftRight byte offset (Nat.le_of_lt inside), more,
    littleEndian, ← UInt8.toNat_inj, UInt8.toNat_ofNat']
  omega

end Value

theorem littleEndian_wordByte (word : UInt32) (first count : Nat) :
    littleEndian (wordByte word) first count = (word.toNat >>> (8 * first)) % 2 ^ (8 * count) := by
  induction count generalizing first with
  | zero => rw [littleEndian, Nat.mul_zero, Nat.pow_zero, Nat.mod_one]
  | succ count ih =>
    have split : (word.toNat >>> (8 * first)) % (256 * 2 ^ (8 * count)) = _ := Nat.mod_mul
    rw [littleEndian, ih, wordByte, UInt8.toNat_ofNat', Nat.mul_succ, Nat.shiftRight_add,
      Nat.shiftRight_eq_div_pow _ 8, Nat.mul_succ, Nat.pow_add, Nat.mul_comm (2 ^ (8 * count))]
    exact split.symm

theorem value_wordByte (word : UInt32) (size : AccessSize) :
    value (wordByte word) 0 size = size.cut word := by
  rw [value, littleEndian_wordByte]
  rfl

theorem wordByte_cut (word : UInt32) {size : AccessSize} {distance : Nat}
    (inside : distance < size.bytes) :
    wordByte (size.cut word) distance = wordByte word distance := by
  rw [← value_wordByte, wordByte_value _ _ _ inside, Nat.zero_add]

/-- Two words with the same low bytes are the same to an access. -/
theorem cut_eq_of_wordByte {word other : UInt32} {size : AccessSize}
    (same : ∀ distance < size.bytes, wordByte other distance = wordByte word distance) :
    size.cut other = size.cut word := by
  rw [← value_wordByte, ← value_wordByte]
  refine value_congr fun distance inside => ?_
  rw [Nat.zero_add]
  exact same distance inside

end Bytes

end RiscBoard
