import RiscBoard.Proofs.Instruction.Operands

/-!
Decoding inverts the instruction format. A word decodes to an instruction exactly when the
instruction is encodable and the word follows its layout (`decode_eq_ok_iff`), and it is refused
exactly when its group is reserved or one of its fields has a reserved code
(`decode_eq_error_iff`).
-/

namespace RiscBoard

open Word

namespace Instruction

theorem decodeAlu_eq_iff {word : UInt32} (inGroup : group word = 0) (instruction : Instruction) :
    decodeAlu word = instruction ↔
      instruction.format = .alu ∧ instruction.Encodable ∧ instruction.layout.Follows word := by
  have small := field_lt_pow word 1 1
  cases instruction with
  | aluRegister op dest left right =>
    simp only [decodeAlu]
    split <;> simp_all [format, Encodable, layout, BitLayout.Follows, BitLayout.FollowsFrom,
      AluOp.ofCode_eq_iff, destField, leftField, rightField, registerAt_eq_iff, group]
    grind
  | aluImmediate op dest immediate =>
    simp only [decodeAlu]
    split <;> simp_all [format, Encodable, layout, BitLayout.Follows, BitLayout.FollowsFrom,
      AluOp.ofCode_eq_iff, destField, registerAt_eq_iff, extend16_eq_iff, followsFrom_signFlag,
      group]
    grind
  | _ =>
    simp only [decodeAlu]
    split <;> simp [format]

theorem decodeBranch_eq_iff {word : UInt32} (even : group word % 2 = 0)
    (instruction : Instruction) :
    decodeBranch word = .ok instruction ↔
      instruction.format = .branch ∧ instruction.Encodable ∧ instruction.layout.Follows word := by
  rw [decodeBranch, map_groupCondition_eq_ok_iff]
  cases instruction with
  | branch condition link left right distance =>
    have inGroup (sign : Nat) (isSign : sign < 2) :
        group word / 2 % 8 = condition.code + 1 ∧ field word 31 1 = sign ↔
          group word = 2 * (condition.code + 1) + 16 * sign := by
      have small := group_lt word
      have counted := condition.code_lt
      rw [field_sign]
      omega
    have isSign : signBit distance < 2 := by unfold signBit; split <;> omega
    simp only [format, Encodable, layout, BitLayout.Follows, BitLayout.FollowsFrom, branch.injEq,
      flag_eq_iff, destField, leftField, registerAt_eq_iff, branchDistance_eq_iff]
    rw [show field word (0 + 1 + 16 + 5 + 5) 5 = group word from rfl, ← inGroup _ isSign]
    grind
  | _ => simp [format]

theorem decodeSetIf_eq_iff {word : UInt32} (odd : group word % 2 = 1) (above : 16 ≤ group word)
    (instruction : Instruction) :
    decodeSetIf word = .ok instruction ↔
      instruction.format = .setIf ∧ instruction.Encodable ∧ instruction.layout.Follows word := by
  rw [decodeSetIf, map_groupCondition_eq_ok_iff]
  cases instruction with
  | setIf condition dest source immediate =>
    have inGroup : group word / 2 % 8 = condition.code + 1 ↔
        group word = 2 * (condition.code + 1) + 17 := by
      have small := group_lt word
      have counted := condition.code_lt
      omega
    simp only [format, Encodable, layout, BitLayout.Follows, BitLayout.FollowsFrom, setIf.injEq,
      destField, leftField, registerAt_eq_iff, extend16_eq_iff, followsFrom_signFlag]
    rw [show field word (0 + 1 + 16 + 5 + 5) 5 = group word from rfl, ← inGroup]
    grind
  | _ => simp [format]

theorem decodeBranchRegister_eq_iff {word : UInt32} (inGroup : group word = 13)
    (instruction : Instruction) :
    decodeBranchRegister word = .ok instruction ↔
      instruction.format = .branchRegister ∧ instruction.Encodable ∧
        instruction.layout.Follows word := by
  have inField : field word 27 5 = 13 := inGroup
  unfold decodeBranchRegister
  cases instruction with
  | branchRegister condition link relative left right target =>
    simp only [format, Encodable, layout, BitLayout.Follows, BitLayout.FollowsFrom,
      ← Condition.ofNat?_eq_some_iff, ← registerAt_eq_iff, ← flag_eq_iff, inField]
    cases Condition.ofNat? (field word 1 3) with
    | none => simp
    | some tested =>
      simp [destField, leftField, rightField]
      grind
  | _ => split <;> simp [format]

theorem decodeCopExchange_eq_iff {word : UInt32} (inGroup : group word = 14)
    (instruction : Instruction) :
    decodeCopExchange word = .ok instruction ↔
      instruction.format = .copExchange ∧ instruction.Encodable ∧
        instruction.layout.Follows word := by
  have inField : field word 27 5 = 14 := inGroup
  have copSmall := field_lt_pow word 8 4
  have cellSmall := field_lt_pow word 12 10
  unfold decodeCopExchange
  cases instruction with
  | moveToCop source cop cell =>
    split <;> simp_all [format, Encodable, layout, BitLayout.Follows, BitLayout.FollowsFrom,
      destField, registerAt_eq_iff, uint8_field_eq_iff, uint16_field_eq_iff]
    grind
  | moveFromCop dest cop cell =>
    split <;> simp_all [format, Encodable, layout, BitLayout.Follows, BitLayout.FollowsFrom,
      destField, registerAt_eq_iff, uint8_field_eq_iff, uint16_field_eq_iff]
    grind
  | _ => split <;> simp [format]

theorem decodeSystem_eq_iff {word : UInt32} (inGroup : group word = 15)
    (instruction : Instruction) :
    decodeSystem word = .ok instruction ↔
      instruction.format = .system ∧ instruction.Encodable ∧
        instruction.layout.Follows word := by
  have inField : field word 27 5 = 15 := inGroup
  have immediateSmall := field_lt_pow word 0 24
  unfold decodeSystem
  cases instruction with
  | syscall immediate | debug immediate | softwareException immediate =>
    split <;> simp_all [format, Encodable, layout, BitLayout.Follows, BitLayout.FollowsFrom,
      uint32_field_eq_iff]
    grind
  | trapLevel level =>
    simp only [format, Encodable, layout, BitLayout.Follows, BitLayout.FollowsFrom, true_and,
      inField, and_true, Nat.zero_add]
    cases level <;> split <;> grind [PrivilegeLevel.index]
  | _ => split <;> simp [format]

theorem decodeMemory_eq_iff {word : UInt32} (inGroup : group word = 16)
    (instruction : Instruction) :
    decodeMemory word = .ok instruction ↔
      instruction.format = .memory ∧ instruction.Encodable ∧
        instruction.layout.Follows word := by
  unfold decodeMemory
  cases instruction with
  | load size dest address =>
    have operand := follows_address_iff word address dest 0
      (rfl : (Piece.bits 2 size.code).width = 2)
    simp only [Encodable, layout, and_assoc, operand, format, true_and]
    split <;> grind [BitLayout.FollowsFrom, AccessSize.ofCode_eq_iff]
  | store size source address =>
    have operand := follows_address_iff word address source 1
      (rfl : (Piece.bits 2 size.code).width = 2)
    simp only [Encodable, layout, and_assoc, operand, format, true_and]
    split <;> grind [BitLayout.FollowsFrom, AccessSize.ofCode_eq_iff]
  | loadAddress dest address =>
    have operand := follows_address_iff word address dest 2 (rfl : (Piece.free 2).width = 2)
    simp only [Encodable, layout, operand, format, true_and]
    split <;> grind [BitLayout.FollowsFrom]
  | _ => grind [format]

theorem decodeLoadImmediate_eq_iff {word : UInt32} (inGroup : group word = 17)
    (instruction : Instruction) :
    decodeLoadImmediate word = instruction ↔
      instruction.format = .loadImmediate ∧ instruction.Encodable ∧
        instruction.layout.Follows word := by
  have inField : field word 27 5 = 17 := inGroup
  have shiftSmall := field_lt_pow word 0 5
  cases instruction with
  | loadImmediate dest immediate shift =>
    simp only [decodeLoadImmediate, format, Encodable, layout, BitLayout.Follows,
      BitLayout.FollowsFrom, loadImmediate.injEq, destField, registerAt_eq_iff, extend16_eq_iff,
      followsFrom_signFlag, uint32_field_eq_iff (show 5 ≤ 32 by decide)]
    grind
  | _ => simp [decodeLoadImmediate, format]

theorem coprocessor_eq_iff {word : UInt32} (inGroup : 30 ≤ group word)
    (instruction : Instruction) :
    coprocessor word = instruction ↔
      instruction.format = .coprocessor ∧ instruction.Encodable ∧
        instruction.layout.Follows word := by
  cases instruction with
  | coprocessor other =>
    simp only [format, Encodable, layout, BitLayout.Follows, BitLayout.FollowsFrom,
      coprocessor.injEq, true_and, and_true, ← UInt32.toNat_inj, field_eq, group] at inGroup ⊢
    have small := word.toNat_lt
    have otherSmall := other.toNat_lt
    omega
  | _ => simp [format]

theorem mem_groups (word : UInt32) (format : Format) :
    Format.ofGroup? (group word) = some format ↔ group word ∈ format.groups := by
  have table : ∀ number : Fin 32,
      Format.ofGroup? number = some format ↔ number.val ∈ format.groups := by
    cases format <;> decide
  exact table ⟨group word, group_lt word⟩

theorem mem_reservedGroups (word : UInt32) :
    Format.ofGroup? (group word) = none ↔ group word ∈ Format.reservedGroups := by
  have table : ∀ number : Fin 32,
      Format.ofGroup? number = none ↔ number.val ∈ Format.reservedGroups := by
    decide
  exact table ⟨group word, group_lt word⟩

theorem mem_groups_of_follows {word : UInt32} {instruction : Instruction}
    (encodable : instruction.Encodable) (follows : instruction.layout.Follows word) :
    group word ∈ instruction.format.groups := by
  cases instruction with
  | branch condition link left right distance =>
    have inGroup : group word = 2 * (condition.code + 1) + 16 * signBit distance :=
      follows.2.2.2.2.1
    rw [inGroup, signBit, format]
    cases condition <;> split <;> decide
  | setIf condition dest source immediate =>
    simp only [layout, BitLayout.Follows, followsFrom_signFlag, BitLayout.FollowsFrom] at follows
    have inGroup : group word = 2 * (condition.code + 1) + 17 := follows.2.2.2.2.1
    rw [inGroup, format]
    cases condition <;> decide
  | load size dest address =>
    have operand := follows_address_iff word address dest 0
      (rfl : (Piece.bits 2 size.code).width = 2)
    exact List.mem_singleton.2 (operand.1 ⟨encodable.2, follows⟩).2.2.2.2
  | store size source address =>
    have operand := follows_address_iff word address source 1
      (rfl : (Piece.bits 2 size.code).width = 2)
    exact List.mem_singleton.2 (operand.1 ⟨encodable.2, follows⟩).2.2.2.2
  | loadAddress dest address =>
    have operand := follows_address_iff word address dest 2 (rfl : (Piece.free 2).width = 2)
    exact List.mem_singleton.2 (operand.1 ⟨encodable, follows⟩).2.2.2.2
  | coprocessor other =>
    have inGroup : group word = other.toNat / 2 ^ 27 := follows.2.1
    simp only [Encodable, group, field_eq] at encodable
    have otherSmall := other.toNat_lt
    simp only [format, Format.groups, inGroup, List.mem_cons, List.not_mem_nil, or_false]
    omega
  | _ =>
    simp only [layout, BitLayout.Follows, followsFrom_signFlag, BitLayout.FollowsFrom] at follows
    simp_all [group, format, Format.groups]

theorem decode_eq_ok_iff_of_format {word : UInt32} {format : Format}
    (found : Format.ofGroup? (group word) = some format) (instruction : Instruction) :
    decode word = .ok instruction ↔
      instruction.format = format ∧ instruction.Encodable ∧ instruction.layout.Follows word := by
  have member := (mem_groups word format).1 found
  simp only [decode, found]
  cases format <;> simp only [Format.groups, List.mem_singleton] at member
  case alu => rw [Except.ok.injEq, decodeAlu_eq_iff member]
  case branch => exact decodeBranch_eq_iff (Format.groups_branch _ member).1 instruction
  case branchRegister => exact decodeBranchRegister_eq_iff member instruction
  case copExchange => exact decodeCopExchange_eq_iff member instruction
  case system => exact decodeSystem_eq_iff member instruction
  case memory => exact decodeMemory_eq_iff member instruction
  case loadImmediate => rw [Except.ok.injEq, decodeLoadImmediate_eq_iff member]
  case setIf =>
    obtain ⟨odd, above, -⟩ := Format.groups_setIf _ member
    exact decodeSetIf_eq_iff odd above instruction
  case coprocessor =>
    rw [Except.ok.injEq, coprocessor_eq_iff (Format.groups_coprocessor _ member)]

theorem decode_eq_ok_iff (word : UInt32) (instruction : Instruction) :
    decode word = .ok instruction ↔
      instruction.Encodable ∧ instruction.layout.Follows word := by
  constructor
  · intro decoded
    cases found : Format.ofGroup? (group word) with
    | none => simp [decode, found] at decoded
    | some format => exact ((decode_eq_ok_iff_of_format found instruction).1 decoded).2
  · rintro ⟨encodable, follows⟩
    have found := (mem_groups word _).2 (mem_groups_of_follows encodable follows)
    exact (decode_eq_ok_iff_of_format found instruction).2 ⟨rfl, encodable, follows⟩

theorem map_groupCondition_ne_error {word : UInt32} (build : Condition → Instruction)
    (counted : 1 ≤ group word / 2 % 8 ∧ group word / 2 % 8 ≤ 6) (error : DecodeError) :
    (groupCondition word).map build ≠ .error error := by
  cases found : groupCondition word with
  | ok condition => simp [Except.map]
  | error error =>
    have reserved := ((groupCondition_eq_error_iff word error).1 found).2
    omega

theorem decodeBranchRegister_eq_error_iff (word : UInt32) (error : DecodeError) :
    decodeBranchRegister word = .error error ↔
      error = .reservedCondition ∧ (field word 1 3 = 6 ∨ field word 1 3 = 7) := by
  have small := field_lt_pow word 1 3
  unfold decodeBranchRegister
  cases found : Condition.ofNat? (field word 1 3) with
  | none =>
    have above := Condition.ofNat?_eq_none_iff.1 found
    have outside : field word 1 3 = 6 ∨ field word 1 3 = 7 := by omega
    rw [Except.error.injEq, eq_comm, and_iff_left outside]
  | some condition =>
    have below := Condition.ofNat?_eq_some_iff.1 found
    have counted := condition.code_lt
    simp only [reduceCtorEq, false_iff]
    omega

theorem decodeCopExchange_eq_error_iff (word : UInt32) (error : DecodeError) :
    decodeCopExchange word = .error error ↔ error = .reservedCopOp ∧ 1 < field word 0 5 := by
  unfold decodeCopExchange
  split <;> grind

theorem decodeSystem_eq_error_iff (word : UInt32) (error : DecodeError) :
    decodeSystem word = .error error ↔ error = .reservedSystemOp ∧ field word 24 3 = 7 := by
  have small := field_lt_pow word 24 3
  unfold decodeSystem
  split <;> grind

theorem decodeMemory_eq_error_iff (word : UInt32) (error : DecodeError) :
    decodeMemory word = .error error ↔
      error = .reservedMemoryOp ∧ field word 3 2 = 3 ∨
        error = .reservedAccessSize ∧ field word 3 2 < 2 ∧ field word 5 2 = 3 := by
  have small := field_lt_pow word 3 2
  have exec : AccessSize.ofCode ⟨field word 5 2, field_lt word 5 2⟩ = .exec ↔
      field word 5 2 = 3 :=
    AccessSize.ofCode_eq_iff _ .exec
  unfold decodeMemory
  simp only [exec]
  split <;> grind

/-- Only the groups without a format and those of four formats have reserved codes. -/
theorem HasReserved.mem_group {word : UInt32} {error : DecodeError}
    (reserved : HasReserved word error) :
    group word ∈ Format.reservedGroups ++ [13, 14, 15, 16] := by
  cases error with
  | reservedGroup number =>
    exact List.mem_append_left _ (reserved.1 ▸ reserved.2)
  | _ => simp [reserved.1]

theorem decode_eq_error_iff (word : UInt32) (error : DecodeError) :
    decode word = .error error ↔ HasReserved word error := by
  cases found : Format.ofGroup? (group word) with
  | none =>
    have member := (mem_reservedGroups word).1 found
    simp only [decode, found, Except.error.injEq]
    constructor
    · rintro rfl
      exact ⟨rfl, member⟩
    · intro reserved
      cases error with
      | reservedGroup number => rw [reserved.1]
      | _ => exact absurd (reserved.1 ▸ member) (by decide)
  | some format =>
    have member := (mem_groups word format).1 found
    have unlisted (number : Nat) : ¬HasReserved word (.reservedGroup number) := by
      rintro ⟨rfl, reserved⟩
      rw [← mem_reservedGroups, found] at reserved
      cases reserved
    have unreserved (plain : ∀ number ∈ format.groups,
        number ∉ Format.reservedGroups ++ [13, 14, 15, 16]) : ¬HasReserved word error :=
      fun reserved => plain _ member reserved.mem_group
    simp only [decode, found]
    cases format with
    | alu | loadImmediate | coprocessor => exact iff_of_false nofun (unreserved (by decide))
    | branch =>
      have counted := (Format.groups_branch _ member).2
      exact iff_of_false (map_groupCondition_ne_error _ counted error) (unreserved (by decide))
    | setIf =>
      have counted := (Format.groups_setIf _ member).2.2
      exact iff_of_false (map_groupCondition_ne_error _ counted error) (unreserved (by decide))
    | branchRegister =>
      have inGroup : group word = 13 := List.mem_singleton.1 member
      rw [decodeBranchRegister_eq_error_iff]
      cases error with
      | reservedGroup number => simp [unlisted]
      | _ => simp [HasReserved, inGroup]
    | copExchange =>
      have inGroup : group word = 14 := List.mem_singleton.1 member
      rw [decodeCopExchange_eq_error_iff]
      cases error with
      | reservedGroup number => simp [unlisted]
      | _ => simp [HasReserved, inGroup]
    | system =>
      have inGroup : group word = 15 := List.mem_singleton.1 member
      rw [decodeSystem_eq_error_iff]
      cases error with
      | reservedGroup number => simp [unlisted]
      | _ => simp [HasReserved, inGroup]
    | memory =>
      have inGroup : group word = 16 := List.mem_singleton.1 member
      rw [decodeMemory_eq_error_iff]
      cases error with
      | reservedGroup number => simp [unlisted]
      | _ => simp [HasReserved, inGroup]

theorem width_layout (instruction : Instruction) : instruction.layout.width = 32 := by
  cases instruction with
  | load size register address | store size register address | loadAddress register address =>
    obtain ⟨base, offset, subtract⟩ := address
    cases offset <;> rfl
  | _ => simp [layout, BitLayout.width]

theorem fits_address {address : Address} (encodable : address.offset.Encodable)
    (register : Register) {op : Nat} (isOp : op < 2 ^ 2) {size : Piece}
    (fits : BitLayout.Fits [size]) : (address.layout register op size).Fits := by
  have sizeThen {rest : BitLayout} (restFits : rest.Fits) : BitLayout.Fits (size :: rest) := by
    cases size with
    | bits width value => exact ⟨fits.1, restFits⟩
    | free width => exact restFits
  have subtracts : address.subtract.toNat < 2 ^ 1 := Bool.toNat_lt address.subtract
  have upper : BitLayout.Fits [.bits 5 address.base, .bits 5 register, .bits 5 16] :=
    ⟨address.base.isLt, register.isLt, by decide, trivial⟩
  obtain ⟨base, offset, subtract⟩ := address
  cases offset with
  | scaled index scale | shifted index scale =>
    exact ⟨subtracts, by decide, isOp, sizeThen ⟨encodable, index.isLt, upper⟩⟩
  | fixed immediate =>
    have high : immediate.toNat / 2 ^ 10 < 2 ^ 1 := by
      have small : immediate.toNat < 2048 := encodable
      omega
    exact ⟨subtracts, high, by decide, isOp, sizeThen ⟨Nat.mod_lt _ (by decide), upper⟩⟩

theorem fits_layout {instruction : Instruction} (encodable : instruction.Encodable) :
    instruction.layout.Fits := by
  have flag (value : Bool) : value.toNat < 2 ^ 1 := Bool.toNat_lt value
  have half (value : UInt32) : lowHalf value < 2 ^ 16 := Nat.mod_lt _ (by decide)
  cases instruction with
  | aluRegister op dest left right =>
    exact ⟨by decide, op.code_lt, right.isLt, left.isLt, dest.isLt, by decide, trivial⟩
  | aluImmediate op dest immediate =>
    exact (fits_signFlag ..).2
      ⟨by decide, op.code_lt, half immediate, dest.isLt, by decide, trivial⟩
  | branch condition link left right distance =>
    have inGroup : 2 * (condition.code + 1) + 16 * signBit distance < 2 ^ 5 := by
      have counted := condition.code_lt
      have isSign : signBit distance < 2 := by unfold signBit; split <;> omega
      omega
    exact ⟨flag link, half distance.toUInt32, right.isLt, left.isLt, inGroup, trivial⟩
  | branchRegister condition link relative left right target =>
    have counted : condition.code < 2 ^ 3 := Nat.lt_trans condition.code_lt (by decide)
    exact ⟨flag link, counted, flag relative, target.isLt, right.isLt, left.isLt, by decide,
      trivial⟩
  | moveToCop register cop cell | moveFromCop register cop cell =>
    exact ⟨by decide, encodable.1, encodable.2, register.isLt, by decide, trivial⟩
  | syscall immediate | debug immediate | softwareException immediate =>
    exact ⟨encodable, by decide, by decide, trivial⟩
  | trapLevel level => cases level <;> decide
  | load size register address | store size register address =>
    exact fits_address encodable.2 register (by decide) (by cases size <;> decide)
  | loadAddress dest address => exact fits_address encodable dest (by decide) (by decide)
  | loadImmediate dest immediate shift =>
    exact ⟨encodable.2, (fits_signFlag ..).2 ⟨half immediate, dest.isLt, by decide, trivial⟩⟩
  | setIf condition dest source immediate =>
    have inGroup : 2 * (condition.code + 1) + 17 < 2 ^ 5 := by
      have counted := condition.code_lt
      omega
    exact (fits_signFlag ..).2 ⟨half immediate, source.isLt, dest.isLt, inGroup, trivial⟩
  | coprocessor word =>
    have small := word.toNat_lt
    exact ⟨Nat.mod_lt _ (by decide), by omega, trivial⟩

/-- Decoding is the inverse of the format. An encodable instruction is what its word decodes to; the
words that decode to an instruction are those that agree with its word on the bits its layout
fixes; and the words that decode to none are those with a reserved code, refused for it. -/
theorem decode_inverts_format :
    (∀ instruction : Instruction, instruction.Encodable →
      decode instruction.encode = .ok instruction) ∧
    (∀ word instruction, decode word = .ok instruction ↔
      instruction.Encodable ∧ ∀ position, instruction.layout.Fixes position →
        bit word position = bit instruction.encode position) ∧
    (∀ word error, decode word = .error error ↔ HasReserved word error) := by
  refine ⟨fun instruction encodable => ?_, fun word instruction => ?_, decode_eq_error_iff⟩
  · rw [decode_eq_ok_iff]
    exact ⟨encodable, BitLayout.follows_word (fits_layout encodable) (width_layout instruction)⟩
  · rw [decode_eq_ok_iff]
    refine and_congr_right fun encodable => ?_
    exact BitLayout.follows_iff_agrees (fits_layout encodable) (width_layout instruction) word

/-- A load at a fixed offset of eleven bits comes back from its word, a constant comes back from its
word with the flag that makes no difference to it, and a load of the fourth size is refused. -/
theorem loading_inverts_format :
    let loading : Instruction := .load .long 3 ⟨4, .fixed 1025, true⟩
    let constant : Instruction := .loadImmediate 5 0x7fff 3
    (loading.Encodable ∧ decode loading.encode = .ok loading) ∧
      (constant.Encodable ∧ decode (setBit constant.encode 5 true) = .ok constant) ∧
      (HasReserved 0x80000060 .reservedAccessSize ∧
        decode 0x80000060 = .error .reservedAccessSize) := by
  have encodable : (loadImmediate 5 0x7fff 3).Encodable := by decide
  have reserved : HasReserved 0x80000060 .reservedAccessSize := ⟨rfl, by decide, rfl⟩
  refine ⟨⟨by decide, decode_inverts_format.1 _ (by decide)⟩, ⟨encodable, ?_⟩, reserved,
    (decode_inverts_format.2.2 _ _).2 reserved⟩
  refine (decode_inverts_format.2.1 _ _).2 ⟨encodable, fun position fixed => ?_⟩
  rw [bit_setBit _ _ (by decide), if_neg]
  rintro rfl
  exact absurd fixed (by decide)

end Instruction

end RiscBoard
