import RiscBoard.Proofs.Instruction.Encoding

/-!
The operands of a word. Each operand that decoding reads from a word is determined by the fields in
which the layout of the instruction has it: registers and codes by one field, extended constants by
a field and a flag (`extend16_eq_iff`), the distance of a branch by a field and the top of the group
(`branchDistance_eq_iff`), memory operands by all their pieces (`follows_address_iff`).
-/

namespace RiscBoard

open Word

theorem AluOp.ofCode_eq_iff (code : Fin 16) (op : AluOp) : ofCode code = op ↔ code = op.code := by
  revert code; cases op <;> decide

theorem AluOp.code_lt (op : AluOp) : op.code < 16 := by
  cases op <;> decide

theorem AccessSize.ofCode_eq_iff (code : Fin 4) (size : AccessSize) :
    ofCode code = size ↔ code = size.code := by
  revert code; cases size <;> decide

theorem Condition.code_lt (condition : Condition) : condition.code < 6 := by
  cases condition <;> decide

theorem Condition.code_of_ofNat? : ∀ code : Fin 6, ∀ condition, ofNat? code = some condition →
    condition.code = code := by
  decide

theorem Condition.ofNat?_eq_some_iff {code : Nat} {condition : Condition} :
    ofNat? code = some condition ↔ code = condition.code := by
  constructor
  · intro found
    have small : code < 6 := (Vector.getElem?_eq_some_iff.1 found).1
    exact (code_of_ofNat? ⟨code, small⟩ condition found).symm
  · rintro rfl
    exact ofNat?_code condition

theorem Condition.ofNat?_eq_none_iff {code : Nat} : ofNat? code = none ↔ 6 ≤ code :=
  Vector.getElem?_eq_none_iff

namespace Format

/-- The groups of branches count the comparisons from 1. -/
theorem groups_branch : ∀ number ∈ branch.groups,
    number % 2 = 0 ∧ 1 ≤ number / 2 % 8 ∧ number / 2 % 8 ≤ 6 := by
  decide

theorem groups_setIf : ∀ number ∈ setIf.groups,
    number % 2 = 1 ∧ 16 ≤ number ∧ 1 ≤ number / 2 % 8 ∧ number / 2 % 8 ≤ 6 := by
  decide

theorem groups_coprocessor : ∀ number ∈ coprocessor.groups, 30 ≤ number := by
  decide

end Format

namespace Word

theorem field_lt_pow (word : UInt32) (low width : Nat) : field word low width < 2 ^ width := by
  rw [field_eq]
  exact Nat.mod_lt _ (Nat.two_pow_pos width)

theorem flag_eq_iff (word : UInt32) (low : Nat) (flag : Bool) :
    (field word low 1 == 1) = flag ↔ field word low 1 = flag.toNat := by
  have small := field_lt_pow word low 1
  cases flag with
  | false =>
    simp only [beq_eq_false_iff_ne, ne_eq, Bool.toNat_false]
    omega
  | true => simp

theorem uint32_field_eq_iff {word value : UInt32} {low width : Nat} (narrow : width ≤ 32) :
    UInt32.ofNat (field word low width) = value ↔ field word low width = value.toNat := by
  have small := Nat.lt_of_lt_of_le (field_lt_pow word low width)
    (Nat.pow_le_pow_right Nat.two_pos narrow)
  rw [← UInt32.toNat_inj, UInt32.toNat_ofNat_of_lt' small]

theorem uint16_field_eq_iff {word : UInt32} {value : UInt16} {low width : Nat}
    (narrow : width ≤ 16) :
    UInt16.ofNat (field word low width) = value ↔ field word low width = value.toNat := by
  have small := Nat.lt_of_lt_of_le (field_lt_pow word low width)
    (Nat.pow_le_pow_right Nat.two_pos narrow)
  rw [← UInt16.toNat_inj, UInt16.toNat_ofNat_of_lt' small]

theorem uint8_field_eq_iff {word : UInt32} {value : UInt8} {low width : Nat}
    (narrow : width ≤ 8) :
    UInt8.ofNat (field word low width) = value ↔ field word low width = value.toNat := by
  have small := Nat.lt_of_lt_of_le (field_lt_pow word low width)
    (Nat.pow_le_pow_right Nat.two_pos narrow)
  rw [← UInt8.toNat_inj, UInt8.toNat_ofNat_of_lt' small]

end Word

namespace Instruction

theorem registerAt_eq_iff (word : UInt32) (low : Nat) (register : Register) :
    registerAt word low = register ↔ field word low 5 = register :=
  Fin.ext_iff

theorem group_lt (word : UInt32) : group word < 32 := field_lt_pow word 27 5

theorem toNat_extend16 {value : Nat} (small : value < 2 ^ 16) (signed : Bool) :
    (extend16 value signed).toNat =
      if signed = true ∧ 0x8000 ≤ value then value + 0xffff0000 else value := by
  cases signed with
  | false =>
    simp only [extend16, Bool.false_eq_true, ↓reduceIte, UInt32.toNat_ofNat', false_and]
    omega
  | true =>
    have size : UInt32.size = 0x100000000 := rfl
    simp only [extend16, signExtend, if_true, true_and, UInt32.toNat_ofNat']
    split <;> split <;> omega

theorem followsFrom_signFlag (word immediate : UInt32) (low : Nat) (rest : BitLayout) :
    BitLayout.FollowsFrom word low (signFlag immediate :: rest) ↔
      (immediate.toNat < 0x8000 ∨
        field word low 1 = if immediate.toNat < 0x10000 then 0 else 1) ∧
      BitLayout.FollowsFrom word (low + 1) rest := by
  unfold signFlag
  by_cases clear : immediate.toNat < 0x8000 <;> simp [clear, BitLayout.FollowsFrom]

/-- The constants of an extended field are the halfwords with the field's bits, and with the flag
where it makes a difference. -/
theorem extend16_eq_iff (word immediate : UInt32) (low flag : Nat) :
    extend16 (field word low 16) (field word flag 1 == 1) = immediate ↔
      IsHalfword immediate ∧ field word low 16 = lowHalf immediate ∧
        (immediate.toNat < 0x8000 ∨
          field word flag 1 = if immediate.toNat < 0x10000 then 0 else 1) := by
  have small := field_lt_pow word low 16
  have flagSmall := field_lt_pow word flag 1
  have immediateSmall := immediate.toNat_lt
  rw [← UInt32.toNat_inj, toNat_extend16 small]
  simp only [IsHalfword, lowHalf, beq_iff_eq]
  split <;> split <;> omega

theorem int32_toInt_eq (value : Int32) :
    value.toInt = if value.toUInt32.toNat < 2 ^ 31 then (value.toUInt32.toNat : Int)
      else value.toUInt32.toNat - (2 ^ 32 : Nat) := by
  have cond := BitVec.toInt_eq_toNat_cond value.toBitVec
  have small := value.toBitVec.isLt
  rw [Int32.toInt, cond]
  show _ = if value.toBitVec.toNat < 2 ^ 31 then (value.toBitVec.toNat : Int)
      else value.toBitVec.toNat - (2 ^ 32 : Nat)
  split <;> split <;> omega

theorem branchDistance_eq_iff (word : UInt32) (distance : Int32) :
    branchDistance word = distance ↔
      IsDistance distance ∧ field word 1 16 = lowHalf distance.toUInt32 ∧
        field word 31 1 = signBit distance := by
  have small := field_lt_pow word 1 16
  have signSmall := field_lt_pow word 31 1
  have distanceSmall := distance.toUInt32.toNat_lt
  have size : UInt32.size = 0x100000000 := rfl
  have same : branchDistance word = distance ↔
      (signExtend 17 (field word 1 16 + 0x10000 * field word 31 1)).toNat =
        distance.toUInt32.toNat := by
    rw [UInt32.toNat_inj]
    exact ⟨fun equal => congrArg Int32.toUInt32 equal, fun equal => congrArg UInt32.toInt32 equal⟩
  rw [same]
  simp only [IsDistance, lowHalf, signBit, int32_toInt_eq, signExtend, UInt32.toNat_ofNat']
  split <;> split <;> split <;> omega

theorem offset_eq_scaled_iff (word : UInt32) (index : Register) (scale : UInt32) :
    (addressOperand word).offset = .scaled index scale ↔
      field word 1 2 = 0 ∧ field word 7 5 = scale.toNat ∧ rightField word = index := by
  simp only [addressOperand]
  split <;> simp_all [uint32_field_eq_iff, and_comm]

theorem offset_eq_shifted_iff (word : UInt32) (index : Register) (shift : UInt32) :
    (addressOperand word).offset = .shifted index shift ↔
      field word 1 2 = 1 ∧ field word 7 5 = shift.toNat ∧ rightField word = index := by
  simp only [addressOperand]
  split <;> simp_all [uint32_field_eq_iff, and_comm]

/-- A fixed offset has ten bits of its own and bit 1 of a mode whose bit 2 is set. -/
theorem offset_eq_fixed_iff (word immediate : UInt32) :
    (addressOperand word).offset = .fixed immediate ↔
      immediate.toNat < 2048 ∧ field word 1 1 = immediate.toNat / 2 ^ 10 ∧ field word 2 1 = 1 ∧
        field word 7 10 = immediate.toNat % 2 ^ 10 := by
  have mode : field word 1 2 = field word 1 1 + 2 * field word 2 1 := field_add word 1 1 1
  have lowSmall := field_lt_pow word 1 1
  have highSmall := field_lt_pow word 2 1
  have small := field_lt_pow word 7 10
  simp only [addressOperand]
  split
  next =>
    simp only [reduceCtorEq, false_iff]
    omega
  next =>
    simp only [reduceCtorEq, false_iff]
    omega
  next notScaled notShifted =>
    have notScaled : field word 1 2 ≠ 0 := notScaled
    have notShifted : field word 1 2 ≠ 1 := notShifted
    rw [Offset.fixed.injEq, ← UInt32.toNat_inj, UInt32.toNat_ofNat']
    omega

/-- The operand of a memory instruction is the one whose pieces the word has around the operation
and the size. -/
theorem follows_address_iff (word : UInt32) (address : Address) (register : Register) (op : Nat)
    {size : Piece} (twoBits : size.width = 2) :
    address.offset.Encodable ∧ (address.layout register op size).Follows word ↔
      addressOperand word = address ∧ field word 3 2 = op ∧
        BitLayout.FollowsFrom word 5 [size] ∧ destField word = register ∧ group word = 16 := by
  have sizeThen (next : Piece) (rest : BitLayout) :
      BitLayout.FollowsFrom word 5 (size :: next :: rest) ↔
        BitLayout.FollowsFrom word 5 [size] ∧ BitLayout.FollowsFrom word 7 (next :: rest) := by
    cases size <;> simp_all [Piece.width, BitLayout.FollowsFrom]
  have scaleSmall := field_lt_pow word 7 5
  obtain ⟨base, offset, subtract⟩ := address
  have parts : addressOperand word = ⟨base, offset, subtract⟩ ↔
      leftField word = base ∧ (addressOperand word).offset = offset ∧
        (field word 0 1 == 1) = subtract := by
    rw [Address.mk.injEq]
    rfl
  rw [parts, flag_eq_iff]
  cases offset with
  | scaled index scale =>
    simp only [offset_eq_scaled_iff, Offset.Encodable, Address.layout, BitLayout.Follows,
      BitLayout.FollowsFrom, sizeThen, registerAt_eq_iff, leftField, rightField, destField, group]
    grind
  | shifted index shift =>
    simp only [offset_eq_shifted_iff, Offset.Encodable, Address.layout, BitLayout.Follows,
      BitLayout.FollowsFrom, sizeThen, registerAt_eq_iff, leftField, rightField, destField, group]
    grind
  | fixed immediate =>
    simp only [offset_eq_fixed_iff, Offset.Encodable, Address.layout, BitLayout.Follows,
      BitLayout.FollowsFrom, sizeThen, registerAt_eq_iff, leftField, destField, group]
    grind

theorem groupCondition_eq_ok_iff (word : UInt32) (condition : Condition) :
    groupCondition word = .ok condition ↔ group word / 2 % 8 = condition.code + 1 := by
  unfold groupCondition
  split
  next zero => simp [zero]
  next code counted =>
    rw [counted, Nat.succ_inj, ← Condition.ofNat?_eq_some_iff]
    cases Condition.ofNat? code <;> simp

theorem map_groupCondition_eq_ok_iff (word : UInt32) (build : Condition → Instruction)
    (instruction : Instruction) :
    (groupCondition word).map build = .ok instruction ↔
      ∃ condition, group word / 2 % 8 = condition.code + 1 ∧ build condition = instruction := by
  simp only [← groupCondition_eq_ok_iff]
  cases groupCondition word <;> simp [Except.map]

theorem groupCondition_eq_error_iff (word : UInt32) (error : DecodeError) :
    groupCondition word = .error error ↔
      error = .reservedCondition ∧ (group word / 2 % 8 = 0 ∨ group word / 2 % 8 = 7) := by
  unfold groupCondition
  split
  next zero => simp [zero, eq_comm]
  next code counted =>
    rw [counted]
    cases found : Condition.ofNat? code with
    | none =>
      have above := Condition.ofNat?_eq_none_iff.1 found
      simp only [Option.elim_none, eq_comm, Except.error.injEq, iff_self_and]
      omega
    | some condition =>
      have below := Condition.ofNat?_eq_some_iff.1 found
      have small := condition.code_lt
      simp only [Option.elim_some, reduceCtorEq, false_or, false_iff]
      rintro ⟨-, reserved⟩
      omega

theorem field_sign (word : UInt32) : field word 31 1 = group word / 16 := by
  have parts : group word = field word 27 4 + 16 * field word 31 1 := field_add word 27 4 1
  have small := field_lt_pow word 27 4
  omega

end Instruction

end RiscBoard
