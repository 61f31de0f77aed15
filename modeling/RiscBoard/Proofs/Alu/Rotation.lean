import Mathlib.Data.Nat.Bitwise
import RiscBoard.Alu

/-!
Rotations of a word. A rotation is known by where each bit comes from, so that rotations add up: one
after another is one by the sum of the amounts, and one to the right is one to the left by the rest of
a full turn. As a number a rotated word is a sum, of the bits that have moved on and of those that have
come in at the other end.
-/

namespace RiscBoard.Word

variable (word : BitVec 32) (amount : Nat)

theorem getLsbD_rotateLeft_mod {position : Nat} (inside : position < 32) :
    (word.rotateLeft amount).getLsbD position =
      word.getLsbD ((position + (32 - amount % 32)) % 32) := by
  rw [BitVec.getLsbD_rotateLeft]
  by_cases around : position < amount % 32
  · rw [decide_eq_true around, cond_true]
    congr 1
    omega
  · rw [decide_eq_false around, cond_false, decide_eq_true inside, Bool.true_and]
    congr 1
    omega

theorem getLsbD_rotateRight_mod {position : Nat} (inside : position < 32) :
    (word.rotateRight amount).getLsbD position = word.getLsbD ((position + amount) % 32) := by
  rw [BitVec.getLsbD_rotateRight]
  by_cases straight : position < 32 - amount % 32
  · rw [decide_eq_true straight, cond_true]
    congr 1
    omega
  · rw [decide_eq_false straight, cond_false, decide_eq_true inside, Bool.true_and]
    congr 1
    omega

theorem rotateLeft_congr {amount other : Nat} (same : amount % 32 = other % 32) :
    word.rotateLeft amount = word.rotateLeft other := by
  rw [← BitVec.rotateLeft_mod_eq_rotateLeft, same, BitVec.rotateLeft_mod_eq_rotateLeft]

theorem rotateLeft_rotateLeft (again : Nat) :
    (word.rotateLeft amount).rotateLeft again = word.rotateLeft (amount + again) := by
  apply BitVec.eq_of_getLsbD_eq
  intro position inside
  rw [getLsbD_rotateLeft_mod _ _ inside, getLsbD_rotateLeft_mod _ _ (Nat.mod_lt _ (by decide)),
    getLsbD_rotateLeft_mod _ _ inside]
  congr 1
  omega

theorem rotateRight_eq_rotateLeft :
    word.rotateRight amount = word.rotateLeft (32 - amount % 32) := by
  apply BitVec.eq_of_getLsbD_eq
  intro position inside
  rw [getLsbD_rotateRight_mod _ _ inside, getLsbD_rotateLeft_mod _ _ inside]
  congr 1
  omega

theorem rotateLeft_of_fullTurns (turns : amount % 32 = 0) : word.rotateLeft amount = word := by
  apply BitVec.eq_of_getLsbD_eq
  intro position inside
  rw [getLsbD_rotateLeft_mod _ _ inside, turns]
  congr 1
  omega

/-- What is shifted up and what is left of the top do not meet, so that they can be added. -/
theorem shifted_or_top {number shift : Nat} (narrow : number < 2 ^ 32) (inside : shift ≤ 32) :
    number <<< shift % 2 ^ 32 ||| number >>> (32 - shift) =
      number * 2 ^ shift % 2 ^ 32 + number / 2 ^ (32 - shift) := by
  have width : 2 ^ 32 = 2 ^ (32 - shift) * 2 ^ shift := by
    rw [← Nat.pow_add, Nat.sub_add_cancel inside]
  have multiple : number * 2 ^ shift % 2 ^ 32 = (number % 2 ^ (32 - shift)) <<< shift := by
    rw [width, Nat.mul_mod_mul_right, Nat.shiftLeft_eq]
  have low : number / 2 ^ (32 - shift) < 2 ^ shift := by
    rw [Nat.div_lt_iff_lt_mul (Nat.two_pow_pos _), Nat.mul_comm, ← width]
    exact narrow
  rw [Nat.shiftLeft_eq, Nat.shiftRight_eq_div_pow, multiple, Nat.shiftLeft_add_eq_or_of_lt low]

theorem toNat_rotateLeft_eq_sum :
    (word.rotateLeft amount).toNat =
      word.toNat * 2 ^ (amount % 32) % 2 ^ 32 + word.toNat / 2 ^ (32 - amount % 32) := by
  rw [BitVec.toNat_rotateLeft]
  exact shifted_or_top word.isLt (Nat.le_of_lt (Nat.mod_lt _ (by decide)))

theorem toNat_rotateRight_eq_sum :
    (word.rotateRight amount).toNat =
      word.toNat * 2 ^ (32 - amount % 32) % 2 ^ 32 + word.toNat / 2 ^ (amount % 32) := by
  have back : 32 - (32 - amount % 32) = amount % 32 := by omega
  have sum := shifted_or_top word.isLt (Nat.sub_le 32 (amount % 32))
  rw [back] at sum
  rw [BitVec.toNat_rotateRight, Nat.or_comm]
  exact sum

end RiscBoard.Word
