import RiscBoard.Access
import RiscBoard.Alu
import RiscBoard.Condition
import RiscBoard.Privilege
import RiscBoard.Register

/-!
Decoded instructions. Immediates are held in the form in which the core uses them, already extended
to a full word.
-/

namespace RiscBoard

inductive Offset where
  | scaled (index : Register) (scale : UInt32)
  | shifted (index : Register) (shift : UInt32)
  | fixed (immediate : UInt32)
  deriving DecidableEq

structure Address where
  base : Register
  offset : Offset
  subtract : Bool
  deriving DecidableEq

inductive Instruction where
  /-- The destination becomes the operation's value on two registers. -/
  | aluRegister (op : AluOp) (dest left right : Register)
  /-- The destination becomes the operation's value on itself and a constant. -/
  | aluImmediate (op : AluOp) (dest : Register) (immediate : UInt32)
  /-- A branch by a distance from the program counter. -/
  | branch (condition : Condition) (link : Bool) (left right : Register) (distance : Int32)
  /-- A branch to the value of a register, or by it when `relative`. -/
  | branchRegister (condition : Condition) (link relative : Bool) (left right target : Register)
  | moveToCop (source : Register) (cop : UInt8) (cell : UInt16)
  | moveFromCop (dest : Register) (cop : UInt8) (cell : UInt16)
  | syscall (immediate : UInt32)
  /-- A trap to a level is reserved and always illegal. -/
  | trapLevel (level : PrivilegeLevel)
  | debug (immediate : UInt32)
  | softwareException (immediate : UInt32)
  | load (size : AccessSize) (dest : Register) (address : Address)
  | store (size : AccessSize) (source : Register) (address : Address)
  /-- The destination becomes the address itself. -/
  | loadAddress (dest : Register) (address : Address)
  /-- The destination becomes a constant shifted to the left. -/
  | loadImmediate (dest : Register) (immediate shift : UInt32)
  /-- The destination becomes 1 or 0 as the comparison holds or not. -/
  | setIf (condition : Condition) (dest source : Register) (immediate : UInt32)
  /-- A word addressed to a coprocessor, which the core ignores. -/
  | coprocessor (word : UInt32)
  deriving DecidableEq

end RiscBoard
