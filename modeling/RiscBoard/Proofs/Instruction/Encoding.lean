import RiscBoard.Instruction.Decode
import RiscBoard.Proofs.Instruction.Layout

/-!
The instruction format. Each instruction has a layout, which gives the word that encodes it and the
bits of this word that mean nothing. An instruction is encodable when its operands have room in the
fields of its layout.
-/

namespace RiscBoard

open Word

def lowHalf (value : UInt32) : Nat := value.toNat % 2 ^ 16

/-- The flag that a 16-bit constant is extended by its sign. It makes no difference to a constant
whose bit 15 is clear. -/
def signFlag (immediate : UInt32) : Piece :=
  if immediate.toNat < 0x8000 then .free 1
  else .bits 1 (if immediate.toNat < 0x10000 then 0 else 1)

@[simp] theorem width_signFlag (immediate : UInt32) : (signFlag immediate).width = 1 := by
  unfold signFlag
  split <;> rfl

@[simp] theorem fits_signFlag (immediate : UInt32) (rest : BitLayout) :
    BitLayout.Fits (signFlag immediate :: rest) ↔ rest.Fits := by
  unfold signFlag
  split
  · exact Iff.rfl
  · simp only [BitLayout.Fits, and_iff_right_iff_imp]
    exact fun _ => by split <;> decide

def IsHalfword (immediate : UInt32) : Prop :=
  immediate.toNat < 0x10000 ∨ 0xffff8000 ≤ immediate.toNat

instance (immediate : UInt32) : Decidable (IsHalfword immediate) :=
  inferInstanceAs (Decidable (_ ∨ _))

def IsDistance (distance : Int32) : Prop :=
  -0x10000 ≤ distance.toInt ∧ distance.toInt < 0x10000

instance (distance : Int32) : Decidable (IsDistance distance) :=
  inferInstanceAs (Decidable (_ ∧ _))

def signBit (value : Int32) : Nat := if value.toInt < 0 then 1 else 0

def Offset.Encodable : Offset → Prop
  | .scaled _ scale => scale.toNat < 32
  | .shifted _ shift => shift.toNat < 32
  | .fixed immediate => immediate.toNat < 2048

instance : (offset : Offset) → Decidable offset.Encodable
  | .scaled _ scale => inferInstanceAs (Decidable (scale.toNat < 32))
  | .shifted _ shift => inferInstanceAs (Decidable (shift.toNat < 32))
  | .fixed immediate => inferInstanceAs (Decidable (immediate.toNat < 2048))

def Address.layout (address : Address) (register : Register) (op : Nat) (size : Piece) :
    BitLayout :=
  match address.offset with
  | .scaled index scale =>
    [.bits 1 address.subtract.toNat, .bits 2 0, .bits 2 op, size, .bits 5 scale.toNat,
      .bits 5 index, .bits 5 address.base, .bits 5 register, .bits 5 16]
  | .shifted index shift =>
    [.bits 1 address.subtract.toNat, .bits 2 1, .bits 2 op, size, .bits 5 shift.toNat,
      .bits 5 index, .bits 5 address.base, .bits 5 register, .bits 5 16]
  | .fixed immediate =>
    [.bits 1 address.subtract.toNat, .bits 1 (immediate.toNat / 2 ^ 10), .bits 1 1, .bits 2 op,
      size, .bits 10 (immediate.toNat % 2 ^ 10), .bits 5 address.base, .bits 5 register, .bits 5 16]

def Format.groups : Format → List Nat
  | .alu => [0]
  | .branch => [2, 4, 6, 8, 10, 12, 18, 20, 22, 24, 26, 28]
  | .branchRegister => [13]
  | .copExchange => [14]
  | .system => [15]
  | .memory => [16]
  | .loadImmediate => [17]
  | .setIf => [19, 21, 23, 25, 27, 29]
  | .coprocessor => [30, 31]

def Format.reservedGroups : List Nat := [1, 3, 5, 7, 9, 11]

namespace Instruction

def format : Instruction → Format
  | .aluRegister .. | .aluImmediate .. => .alu
  | .branch .. => .branch
  | .branchRegister .. => .branchRegister
  | .moveToCop .. | .moveFromCop .. => .copExchange
  | .syscall _ | .trapLevel _ | .debug _ | .softwareException _ => .system
  | .load .. | .store .. | .loadAddress .. => .memory
  | .loadImmediate .. => .loadImmediate
  | .setIf .. => .setIf
  | .coprocessor _ => .coprocessor

/-- The pieces of an instruction's word, from its lowest bit up. The last one is the group; the
groups of branches and of set-if instructions count their comparisons from 1, and that of a branch
has the sign of the distance on top. -/
def layout : Instruction → BitLayout
  | .aluRegister op dest left right =>
    [.free 1, .bits 1 0, .bits 4 op.code, .free 6, .bits 5 right, .bits 5 left, .bits 5 dest,
      .bits 5 0]
  | .aluImmediate op dest immediate =>
    [signFlag immediate, .bits 1 1, .bits 4 op.code, .bits 16 (lowHalf immediate), .bits 5 dest,
      .bits 5 0]
  | .branch condition link left right distance =>
    [.bits 1 link.toNat, .bits 16 (lowHalf distance.toUInt32), .bits 5 right, .bits 5 left,
      .bits 5 (2 * (condition.code + 1) + 16 * signBit distance)]
  | .branchRegister condition link relative left right target =>
    [.bits 1 link.toNat, .bits 3 condition.code, .bits 1 relative.toNat, .free 7, .bits 5 target,
      .bits 5 right, .bits 5 left, .bits 5 13]
  | .moveToCop source cop cell =>
    [.bits 5 0, .free 3, .bits 4 cop.toNat, .bits 10 cell.toNat, .bits 5 source, .bits 5 14]
  | .moveFromCop dest cop cell =>
    [.bits 5 1, .free 3, .bits 4 cop.toNat, .bits 10 cell.toNat, .bits 5 dest, .bits 5 14]
  | .syscall immediate => [.bits 24 immediate.toNat, .bits 3 0, .bits 5 15]
  | .trapLevel level => [.free 24, .bits 3 (level.index + 1), .bits 5 15]
  | .debug immediate => [.bits 24 immediate.toNat, .bits 3 5, .bits 5 15]
  | .softwareException immediate => [.bits 24 immediate.toNat, .bits 3 6, .bits 5 15]
  | .load size dest address => address.layout dest 0 (.bits 2 size.code)
  | .store size source address => address.layout source 1 (.bits 2 size.code)
  | .loadAddress dest address => address.layout dest 2 (.free 2)
  | .loadImmediate dest immediate shift =>
    [.bits 5 shift.toNat, signFlag immediate, .bits 16 (lowHalf immediate), .bits 5 dest,
      .bits 5 17]
  | .setIf condition dest source immediate =>
    [signFlag immediate, .bits 16 (lowHalf immediate), .bits 5 source, .bits 5 dest,
      .bits 5 (2 * (condition.code + 1) + 17)]
  | .coprocessor word => [.bits 27 (word.toNat % 2 ^ 27), .bits 5 (word.toNat / 2 ^ 27)]

def encode (instruction : Instruction) : UInt32 := instruction.layout.word

def Encodable : Instruction → Prop
  | .aluRegister .. | .branchRegister .. | .trapLevel _ => True
  | .aluImmediate _ _ immediate | .setIf _ _ _ immediate => IsHalfword immediate
  | .branch _ _ _ _ distance => IsDistance distance
  | .moveToCop _ cop cell | .moveFromCop _ cop cell => cop.toNat < 16 ∧ cell.toNat < 1024
  | .syscall immediate | .debug immediate | .softwareException immediate =>
    immediate.toNat < 2 ^ 24
  | .load size _ address | .store size _ address => size ≠ .exec ∧ address.offset.Encodable
  | .loadAddress _ address => address.offset.Encodable
  | .loadImmediate _ immediate shift => IsHalfword immediate ∧ shift.toNat < 32
  | .coprocessor word => 30 ≤ group word

instance : (instruction : Instruction) → Decidable instruction.Encodable
  | .aluRegister .. | .branchRegister .. | .trapLevel _ => inferInstanceAs (Decidable True)
  | .aluImmediate _ _ immediate | .setIf _ _ _ immediate =>
    inferInstanceAs (Decidable (IsHalfword immediate))
  | .branch _ _ _ _ distance => inferInstanceAs (Decidable (IsDistance distance))
  | .moveToCop .. | .moveFromCop .. | .load .. | .store .. | .loadImmediate .. =>
    inferInstanceAs (Decidable (_ ∧ _))
  | .syscall immediate | .debug immediate | .softwareException immediate =>
    inferInstanceAs (Decidable (immediate.toNat < 2 ^ 24))
  | .coprocessor word => inferInstanceAs (Decidable (30 ≤ group word))
  | .loadAddress _ address => inferInstanceAs (Decidable address.offset.Encodable)

/-- The word has a reserved code, and this is the error that reports it. -/
def HasReserved (word : UInt32) : DecodeError → Prop
  | .reservedGroup number => number = group word ∧ number ∈ Format.reservedGroups
  | .reservedCondition => group word = 13 ∧ (field word 1 3 = 6 ∨ field word 1 3 = 7)
  | .reservedCopOp => group word = 14 ∧ 1 < field word 0 5
  | .reservedSystemOp => group word = 15 ∧ field word 24 3 = 7
  | .reservedMemoryOp => group word = 16 ∧ field word 3 2 = 3
  | .reservedAccessSize => group word = 16 ∧ field word 3 2 < 2 ∧ field word 5 2 = 3

end Instruction

end RiscBoard
