import RiscBoard.Instruction.Basic
import RiscBoard.Text.Number
import RiscBoard.Word

/-!
The binary form of instructions. The five highest bits of a word are its group, the group selects a
format, and the format says where the operands are. Every word either decodes to one instruction or
is refused with the reason.
-/

namespace RiscBoard

inductive DecodeError where
  | reservedGroup (group : Nat)
  | reservedSystemOp
  | reservedMemoryOp
  | reservedAccessSize
  | reservedCopOp
  | reservedCondition
  deriving DecidableEq

def DecodeError.message : DecodeError → String
  | .reservedGroup group => "instruction group " ++ Text.binaryFive group ++ " is reserved"
  | .reservedSystemOp => "system operation is reserved"
  | .reservedMemoryOp => "memory operation is reserved"
  | .reservedAccessSize => "access size is reserved"
  | .reservedCopOp => "coprocessor exchange operation is reserved"
  | .reservedCondition => "condition code is reserved"

inductive Format where
  | alu
  | branch
  | branchRegister
  | copExchange
  | system
  | memory
  | loadImmediate
  | setIf
  | coprocessor
  deriving DecidableEq

/-- The format of a group. The odd groups below 12 are reserved. -/
def Format.ofGroup? : Nat → Option Format
  | 0 => some alu
  | 2 | 4 | 6 | 8 | 10 | 12 | 18 | 20 | 22 | 24 | 26 | 28 => some branch
  | 13 => some branchRegister
  | 14 => some copExchange
  | 15 => some system
  | 16 => some memory
  | 17 => some loadImmediate
  | 19 | 21 | 23 | 25 | 27 | 29 => some setIf
  | 30 | 31 => some coprocessor
  | _ => none

namespace Instruction

open Word

def group (word : UInt32) : Nat := field word 27 5

def registerAt (word : UInt32) (low : Nat) : Register :=
  ⟨field word low 5, field_lt word low 5⟩

def destField (word : UInt32) : Register := registerAt word 22

def leftField (word : UInt32) : Register := registerAt word 17

def rightField (word : UInt32) : Register := registerAt word 12

def extend16 (value : Nat) (signed : Bool) : UInt32 :=
  if signed then signExtend 16 value else UInt32.ofNat value

/-- The comparison in bits 3 to 1 of the group, counted from 1. -/
def groupCondition (word : UInt32) : Except DecodeError Condition :=
  match group word / 2 % 8 with
  | 0 => .error .reservedCondition
  | code + 1 => (Condition.ofNat? code).elim (.error .reservedCondition) .ok

/-- The distance of a branch has 16 bits in the word and its sign bit on top of the group. -/
def branchDistance (word : UInt32) : Int32 :=
  (signExtend 17 (field word 1 16 + 0x10000 * field word 31 1)).toInt32

/-- The memory operand: bits 2 to 0 select the mode, and the lowest of them the sign. A fixed offset
takes its highest bit from bit 1 of the mode. -/
def addressOperand (word : UInt32) : Address where
  base := leftField word
  subtract := field word 0 1 == 1
  offset :=
    match field word 1 2 with
    | 0 => .scaled (rightField word) (UInt32.ofNat (field word 7 5))
    | 1 => .shifted (rightField word) (UInt32.ofNat (field word 7 5))
    | _ => .fixed (UInt32.ofNat (field word 7 10 + 0x400 * field word 1 1))

def decodeAlu (word : UInt32) : Instruction :=
  let op := AluOp.ofCode ⟨field word 2 4, field_lt word 2 4⟩
  if field word 1 1 = 1 then
    .aluImmediate op (destField word) (extend16 (field word 6 16) (field word 0 1 == 1))
  else
    .aluRegister op (destField word) (leftField word) (rightField word)

def decodeBranch (word : UInt32) : Except DecodeError Instruction :=
  (groupCondition word).map fun condition =>
    .branch condition (field word 0 1 == 1) (destField word) (leftField word) (branchDistance word)

def decodeBranchRegister (word : UInt32) : Except DecodeError Instruction :=
  match Condition.ofNat? (field word 1 3) with
  | none => .error .reservedCondition
  | some condition =>
    .ok (.branchRegister condition (field word 0 1 == 1) (field word 4 1 == 1)
      (destField word) (leftField word) (rightField word))

/-- The coprocessor's number and the cell's number share no bit: the number has the four bits below
the ten of the cell. -/
def decodeCopExchange (word : UInt32) : Except DecodeError Instruction :=
  let cop := UInt8.ofNat (field word 8 4)
  let cell := UInt16.ofNat (field word 12 10)
  match field word 0 5 with
  | 0 => .ok (.moveToCop (destField word) cop cell)
  | 1 => .ok (.moveFromCop (destField word) cop cell)
  | _ => .error .reservedCopOp

def decodeSystem (word : UInt32) : Except DecodeError Instruction :=
  let immediate := UInt32.ofNat (field word 0 24)
  match field word 24 3 with
  | 0 => .ok (.syscall immediate)
  | 1 => .ok (.trapLevel .level0)
  | 2 => .ok (.trapLevel .level1)
  | 3 => .ok (.trapLevel .level2)
  | 4 => .ok (.trapLevel .level3)
  | 5 => .ok (.debug immediate)
  | 6 => .ok (.softwareException immediate)
  | _ => .error .reservedSystemOp

/-- Loads and stores have no `exec` size; the address of a `loadAddress` has a size field that means
nothing. -/
def decodeMemory (word : UInt32) : Except DecodeError Instruction :=
  let size := AccessSize.ofCode ⟨field word 5 2, field_lt word 5 2⟩
  match field word 3 2 with
  | 2 => .ok (.loadAddress (destField word) (addressOperand word))
  | 0 =>
    if size = .exec then .error .reservedAccessSize
    else .ok (.load size (destField word) (addressOperand word))
  | 1 =>
    if size = .exec then .error .reservedAccessSize
    else .ok (.store size (destField word) (addressOperand word))
  | _ => .error .reservedMemoryOp

def decodeLoadImmediate (word : UInt32) : Instruction :=
  .loadImmediate (destField word) (extend16 (field word 6 16) (field word 5 1 == 1))
    (UInt32.ofNat (field word 0 5))

def decodeSetIf (word : UInt32) : Except DecodeError Instruction :=
  (groupCondition word).map fun condition =>
    .setIf condition (destField word) (leftField word)
      (extend16 (field word 1 16) (field word 0 1 == 1))

def decode (word : UInt32) : Except DecodeError Instruction :=
  match Format.ofGroup? (group word) with
  | none => .error (.reservedGroup (group word))
  | some .alu => .ok (decodeAlu word)
  | some .branch => decodeBranch word
  | some .branchRegister => decodeBranchRegister word
  | some .copExchange => decodeCopExchange word
  | some .system => decodeSystem word
  | some .memory => decodeMemory word
  | some .loadImmediate => .ok (decodeLoadImmediate word)
  | some .setIf => decodeSetIf word
  | some .coprocessor => .ok (.coprocessor word)

end Instruction

end RiscBoard
