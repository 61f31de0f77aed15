import RiscBoard.Proofs.Alu.Rotation
import RiscBoard.Proofs.Core.Outcome

/-!
The arithmetic unit computes with integers. A result is an integer modulo 2^32: of the unsigned
operands, and for the arithmetic shift and the sign extensions of an operand read as two's complement.
Shifts count the low five bits of the amount. Rotations undo each other and add up for all amounts,
also for those past a full turn (`operations_are_integral`).
-/

namespace RiscBoard

/-- The number that the lowest `width` bits of a word are in two's complement. -/
def Word.signed (width : Nat) (word : UInt32) : Int :=
  let low := word.toNat % 2 ^ width
  if low < 2 ^ (width - 1) then low else low - 2 ^ width

namespace AluOp

/-- The operation does not fail, and its result is the number modulo 2^32. -/
def Yields (op : AluOp) (dest left right : UInt32) (number : Int) : Prop :=
  ∃ result, op.apply dest left right = .ok result ∧ (result.toNat : Int) = number % 2 ^ 32

structure Integral (dest left right : UInt32) : Prop where
  add : AluOp.add.Yields dest left right (left.toNat + right.toNat)
  sub : AluOp.sub.Yields dest left right (left.toNat - right.toNat)
  mul : AluOp.mul.Yields dest left right (left.toNat * right.toNat)
  mla : AluOp.mla.Yields dest left right (dest.toNat + left.toNat * right.toNat)
  fails : ∀ op : AluOp, op.apply dest left right = .error .divisionByZero ↔
    (op = .div ∨ op = .mod) ∧ right = 0
  divided : right ≠ 0 → ∃ quotient rest,
    AluOp.div.apply dest left right = .ok quotient ∧ AluOp.mod.apply dest left right = .ok rest ∧
      left.toNat = quotient.toNat * right.toNat + rest.toNat ∧ rest.toNat < right.toNat
  lsl : AluOp.lsl.Yields dest left right (left.toNat * 2 ^ (right.toNat % 32))
  lsr : AluOp.lsr.Yields dest left right (left.toNat / 2 ^ (right.toNat % 32) : Nat)
  asr : AluOp.asr.Yields dest left right ((Word.signed 32 left).fdiv (2 ^ (right.toNat % 32)))
  sxb : AluOp.sxb.Yields dest left right (Word.signed 8 left)
  sxs : AluOp.sxs.Yields dest left right (Word.signed 16 left)
  /-- What leaves at one end comes in at the other. -/
  rol : AluOp.rol.Yields dest left right
    (left.toNat * 2 ^ (right.toNat % 32) % 2 ^ 32 + left.toNat / 2 ^ (32 - right.toNat % 32) : Nat)
  ror : AluOp.ror.Yields dest left right
    (left.toNat * 2 ^ (32 - right.toNat % 32) % 2 ^ 32 + left.toNat / 2 ^ (right.toNat % 32) : Nat)

/-- What rotations by two amounts make of a word. Neither looks at the destination. -/
structure Turns (word amount again : UInt32) : Prop where
  rightLeft : ∀ dest other,
    ((AluOp.ror.apply dest word amount).bind fun turned => AluOp.rol.apply other turned amount) =
      .ok word
  leftRight : ∀ dest other,
    ((AluOp.rol.apply dest word amount).bind fun turned => AluOp.ror.apply other turned amount) =
      .ok word
  leftLeft : ∀ dest other,
    ((AluOp.rol.apply dest word amount).bind fun turned => AluOp.rol.apply other turned again) =
      AluOp.rol.apply dest word (.ofNat ((amount.toNat + again.toNat) % 2 ^ 32))
  rightRight : ∀ dest other,
    ((AluOp.ror.apply dest word amount).bind fun turned => AluOp.ror.apply other turned again) =
      AluOp.ror.apply dest word (.ofNat ((amount.toNat + again.toNat) % 2 ^ 32))
  opposite : ∀ dest, AluOp.ror.apply dest word amount =
    AluOp.rol.apply dest word (.ofNat ((2 ^ 32 - amount.toNat) % 2 ^ 32))

section Integers

variable {op : AluOp} {dest left right result : UInt32}

theorem Yields.of_toNat {number : Nat} (applied : op.apply dest left right = .ok result)
    (same : result.toNat = number % 2 ^ 32) : op.Yields dest left right number := by
  refine ⟨result, applied, ?_⟩
  rw [same, Int.natCast_emod]
  rfl

theorem Yields.of_toInt (applied : op.apply dest left right = .ok result) :
    op.Yields dest left right result.toBitVec.toInt := by
  refine ⟨result, applied, ?_⟩
  have bound := result.toNat_lt
  rw [BitVec.toInt_eq_toNat_cond, UInt32.toNat_toBitVec]
  split
  · omega
  · omega

theorem signed_eq_toInt {width : Nat} (some : 0 < width) (word : UInt32) :
    Word.signed width word = (word.toBitVec.setWidth width).toInt := by
  obtain ⟨width, rfl⟩ := Nat.exists_eq_add_one_of_ne_zero (Nat.ne_of_gt some)
  have half : 2 * (word.toNat % 2 ^ (width + 1)) < 2 ^ (width + 1) ↔
      word.toNat % 2 ^ (width + 1) < 2 ^ width := by
    rw [Nat.pow_succ]
    omega
  simp only [Word.signed, BitVec.toInt_eq_toNat_cond, BitVec.toNat_setWidth,
    UInt32.toNat_toBitVec, Nat.add_sub_cancel, half, Int.natCast_pow]
  rfl

theorem yields_sub (dest left right : UInt32) :
    AluOp.sub.Yields dest left right (left.toNat - right.toNat) := by
  refine ⟨left - right, rfl, ?_⟩
  have leftBound := left.toNat_lt
  have rightBound := right.toNat_lt
  rw [UInt32.toNat_sub]
  omega

theorem yields_asr (dest left right : UInt32) :
    AluOp.asr.Yields dest left right ((Word.signed 32 left).fdiv (2 ^ (right.toNat % 32))) := by
  have value : (left.toBitVec.sshiftRight (right.toNat % 32)).toInt =
      (Word.signed 32 left).fdiv (2 ^ (right.toNat % 32)) := by
    rw [BitVec.toInt_sshiftRight, Int.shiftRight_eq_div_pow, signed_eq_toInt (by decide),
      BitVec.setWidth_eq, Int.fdiv_eq_ediv_of_nonneg _ (Int.pow_nonneg (by decide)),
      Int.natCast_pow]
    rfl
  rw [← value]
  exact Yields.of_toInt rfl

theorem Yields.of_signExtend {width : Nat} (some : 0 < width) (inside : width ≤ 32)
    (applied : op.apply dest left right = .ok result)
    (extended : result.toBitVec = (left.toBitVec.setWidth width).signExtend 32) :
    op.Yields dest left right (Word.signed width left) := by
  rw [signed_eq_toInt some, ← BitVec.toInt_signExtend_of_le inside, ← extended]
  exact Yields.of_toInt applied

theorem Yields.of_rotated {turned : BitVec 32} {number : Nat}
    (applied : op.apply dest left right = .ok ⟨turned⟩) (same : turned.toNat = number) :
    op.Yields dest left right number := by
  apply Yields.of_toNat applied
  rw [← same, Nat.mod_eq_of_lt turned.isLt]
  rfl

theorem apply_eq_error_iff (op : AluOp) (dest left right : UInt32) :
    op.apply dest left right = .error .divisionByZero ↔ (op = .div ∨ op = .mod) ∧ right = 0 := by
  cases op <;> simp [apply]

theorem exists_divided (dest left : UInt32) (nonzero : right ≠ 0) :
    ∃ quotient rest, AluOp.div.apply dest left right = .ok quotient ∧
      AluOp.mod.apply dest left right = .ok rest ∧
      left.toNat = quotient.toNat * right.toNat + rest.toNat ∧ rest.toNat < right.toNat := by
  have positive : 0 < right.toNat := by
    rw [Nat.pos_iff_ne_zero, ← UInt32.toNat_zero, ne_eq, UInt32.toNat_inj]
    exact nonzero
  refine ⟨left / right, left % right, if_neg nonzero, if_neg nonzero, ?_, ?_⟩
  · rw [UInt32.toNat_div, UInt32.toNat_mod, Nat.div_add_mod']
  · rw [UInt32.toNat_mod]
    exact Nat.mod_lt _ positive

theorem integral (dest left right : UInt32) : Integral dest left right where
  add := Yields.of_toNat rfl (UInt32.toNat_add ..)
  sub := yields_sub dest left right
  mul := Yields.of_toNat rfl (UInt32.toNat_mul ..)
  mla := by
    refine Yields.of_toNat rfl ?_
    rw [UInt32.toNat_add, UInt32.toNat_mul, Nat.add_mod_mod]
  fails op := op.apply_eq_error_iff dest left right
  divided := exists_divided dest left
  lsl := by
    refine Yields.of_toNat rfl ?_
    rw [UInt32.toNat_shiftLeft, Nat.shiftLeft_eq]
  lsr := by
    refine Yields.of_toNat rfl ?_
    rw [UInt32.toNat_shiftRight, Nat.shiftRight_eq_div_pow]
    exact (Nat.mod_eq_of_lt (Nat.lt_of_le_of_lt (Nat.div_le_self ..) left.toNat_lt)).symm
  asr := yields_asr dest left right
  sxb := by
    apply Yields.of_signExtend (by decide) (by decide) rfl
    rw [Int32.toBitVec_toUInt32, Int8.toBitVec_toInt32, UInt8.toBitVec_toInt8,
      UInt32.toBitVec_toUInt8]
  sxs := by
    apply Yields.of_signExtend (by decide) (by decide) rfl
    rw [Int32.toBitVec_toUInt32, Int16.toBitVec_toInt32, UInt16.toBitVec_toInt16,
      UInt32.toBitVec_toUInt16]
  rol := Yields.of_rotated rfl (Word.toNat_rotateLeft_eq_sum ..)
  ror := Yields.of_rotated rfl (Word.toNat_rotateRight_eq_sum ..)

end Integers

section Rotations

theorem ofNat_mod_toNat (number : Nat) :
    (UInt32.ofNat (number % 2 ^ 32)).toNat % 32 = number % 32 := by
  rw [UInt32.toNat_ofNat']
  omega

theorem rol_rol (dest other word : UInt32) {amount again sum : UInt32}
    (same : (amount.toNat + again.toNat) % 32 = sum.toNat % 32) :
    ((AluOp.rol.apply dest word amount).bind fun turned => AluOp.rol.apply other turned again) =
      AluOp.rol.apply dest word sum := by
  have turns := Word.rotateLeft_rotateLeft word.toBitVec amount.toNat again.toNat
  rw [Word.rotateLeft_congr _ same] at turns
  exact congrArg (fun turned => Except.ok (UInt32.ofBitVec turned)) turns

theorem ror_eq_rol (dest word : UInt32) {amount opposite : UInt32}
    (same : (amount.toNat + opposite.toNat) % 32 = 0) :
    AluOp.ror.apply dest word amount = AluOp.rol.apply dest word opposite := by
  have turns := Word.rotateRight_eq_rotateLeft word.toBitVec amount.toNat
  rw [Word.rotateLeft_congr _ (by omega : (32 - amount.toNat % 32) % 32 = opposite.toNat % 32)]
    at turns
  exact congrArg (fun turned => Except.ok (UInt32.ofBitVec turned)) turns

theorem rol_rol_of_fullTurns (dest other word : UInt32) {amount again : UInt32}
    (turns : (amount.toNat + again.toNat) % 32 = 0) :
    ((AluOp.rol.apply dest word amount).bind fun turned => AluOp.rol.apply other turned again) =
      .ok word := by
  have around := Word.rotateLeft_rotateLeft word.toBitVec amount.toNat again.toNat
  rw [Word.rotateLeft_of_fullTurns _ _ turns] at around
  exact congrArg (fun turned => Except.ok (UInt32.ofBitVec turned)) around

/-- The rest of 2^32 turns a word back. -/
theorem add_opposite (amount : UInt32) :
    (amount.toNat + (UInt32.ofNat ((2 ^ 32 - amount.toNat) % 2 ^ 32)).toNat) % 32 = 0 := by
  have bound := amount.toNat_lt
  rw [UInt32.toNat_ofNat']
  omega

/-- All rotations are rotations to the left, whose amounts add up. -/
theorem turns (word amount again : UInt32) : Turns word amount again := by
  have opposite := add_opposite amount
  have againOpposite := add_opposite again
  have sum := ofNat_mod_toNat (amount.toNat + again.toNat)
  constructor
  case rightLeft =>
    intro dest other
    rw [ror_eq_rol _ _ opposite]
    rw [Nat.add_comm] at opposite
    exact rol_rol_of_fullTurns dest other word opposite
  case leftRight =>
    intro dest other
    simp only [ror_eq_rol _ _ opposite]
    exact rol_rol_of_fullTurns dest other word opposite
  case leftLeft =>
    intro dest other
    exact rol_rol dest other word sum.symm
  case rightRight =>
    intro dest other
    have sumOpposite := add_opposite (.ofNat ((amount.toNat + again.toNat) % 2 ^ 32))
    simp only [ror_eq_rol _ _ opposite, ror_eq_rol _ _ againOpposite, ror_eq_rol _ _ sumOpposite]
    apply rol_rol
    omega
  case opposite =>
    intro dest
    exact ror_eq_rol dest word opposite

end Rotations

end AluOp

/-- An operation as an instruction, which is given the value that the destination has before. It ends
in a fault exactly if it divides by zero, and otherwise delivers its result. -/
structure Core.Computes (core : Core) (op : AluOp) (dest : Register) (left right : UInt32) : Prop where
  faults : (core.executeAlu op dest left right).value.fault =
    if (op = .div ∨ op = .mod) ∧ right = 0 then some .arithmetic else none
  delivers : ∀ result, op.apply (core.registers.get dest) left right = .ok result →
    (core.executeAlu op dest left right).value = (core.follow (.result dest result)).completed

theorem Core.computes (core : Core) (op : AluOp) (dest : Register) (left right : UInt32) :
    core.Computes op dest left right := by
  have fails := op.apply_eq_error_iff (core.registers.get dest) left right
  constructor
  · rw [executeAlu]
    cases applied : op.apply (core.registers.get dest) left right with
    | error error =>
      cases error
      rw [if_pos (fails.1 applied)]
      rfl
    | ok result =>
      have succeeds : ¬ ((op = .div ∨ op = .mod) ∧ right = 0) := by
        intro zero
        rw [fails.2 zero] at applied
        cases applied
      rw [if_neg succeeds]
      rfl
  · intro result applied
    rw [executeAlu, applied]
    exact (core.deliver_agrees dest result).1

namespace AluOp

/-- The whole table computes with integers, whatever the operands, and so do the instructions of every
core. -/
theorem operations_are_integral :
    (∀ dest left right, Integral dest left right) ∧
      (∀ word amount again, Turns word amount again) ∧
      ∀ (core : Core) (op : AluOp) (dest : Register) (left right : UInt32),
        core.Computes op dest left right :=
  ⟨integral, turns, Core.computes⟩

/-- As an amount 0xffffffe1 counts as 1, and as a divisor it is large and not negative. -/
theorem large_operands_are_integral :
    (0xffffffe1 : UInt32) ≠ 0 ∧
      (∃ quotient rest, AluOp.div.apply 0 0xffffffff 0xffffffe1 = .ok quotient ∧
        AluOp.mod.apply 0 0xffffffff 0xffffffe1 = .ok rest ∧
        0xffffffff = quotient.toNat * 0xffffffe1 + rest.toNat ∧ rest.toNat < 0xffffffe1) ∧
      AluOp.asr.Yields 0 0x80000001 0xffffffe1 (-0x40000000) ∧
      AluOp.sxb.Yields 0 0x12345680 0xffffffe1 (-0x80) ∧
      AluOp.ror.apply 0 0x80000001 0xffffffe1 = AluOp.rol.apply 0 0x80000001 0x1f ∧
      ((Core.create 0 .empty).executeAlu .mod 1 5 0).value.fault = some .arithmetic ∧
      AluOp.mla.apply ((Core.create 0 .empty).registers.get 1) 0xffffffff 0xffffffe1 = .ok 0x1f ∧
      ((Core.create 0 .empty).executeAlu .mla 1 0xffffffff 0xffffffe1).value =
        ((Core.create 0 .empty).follow (.result 1 0x1f)).completed := by
  obtain ⟨integral, turns, computes⟩ := operations_are_integral
  have nonzero : (0xffffffe1 : UInt32) ≠ 0 := by decide
  have floor : (Word.signed 32 0x80000001).fdiv (2 ^ ((0xffffffe1 : UInt32).toNat % 32)) =
      -0x40000000 := by decide +kernel
  have byte : Word.signed 8 0x12345680 = -0x80 := by decide +kernel
  have accumulated : AluOp.mla.apply ((Core.create 0 .empty).registers.get 1) 0xffffffff 0xffffffe1 =
      .ok 0x1f := by decide +kernel
  have divided := (integral 0 0xffffffff 0xffffffe1).divided nonzero
  have shifted := (integral 0 0x80000001 0xffffffe1).asr
  have extended := (integral 0 0x12345680 0xffffffe1).sxb
  rw [floor] at shifted
  rw [byte] at extended
  exact ⟨nonzero, divided, shifted, extended, (turns 0x80000001 0xffffffe1 0).opposite 0,
    (computes _ .mod 1 5 0).faults, accumulated, (computes _ .mla 1 _ _).delivers _ accumulated⟩

end AluOp

end RiscBoard
