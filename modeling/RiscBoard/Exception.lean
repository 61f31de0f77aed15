import RiscBoard.Privilege
import RiscBoard.Text.Number

/-!
The faults and traps that the core can take, and the cause word that tells a handler which one it
was. Traps with an immediate carry its low 24 bits in the upper bits of the cause.
-/

namespace RiscBoard

inductive Exception where
  | syscall (immediate : UInt32)
  | debug (immediate : UInt32)
  | softwareException (immediate : UInt32)
  | illegalInstruction
  | invalidCopAccess
  | trapLevel (level : PrivilegeLevel)
  | invalidTrapLevel
  | arithmetic
  | noMapping
  | readProtection
  | writeProtection
  | execProtection
  | fetchMisaligned
  | dataMisaligned
  deriving DecidableEq

namespace Exception

def processorGroup : UInt32 := 0x00400000

def memoryGroup : UInt32 := 0x00800000

def resetCause : UInt32 := 0xffffffff

/-- The low 24 bits of an immediate, moved above the number of the cause. -/
def packed (immediate : UInt32) : UInt32 := (immediate &&& 0xffffff) <<< 8

def code : Exception → UInt32
  | syscall immediate => processorGroup ||| packed immediate
  | debug immediate => processorGroup ||| 1 ||| packed immediate
  | softwareException immediate => processorGroup ||| 2 ||| packed immediate
  | illegalInstruction => processorGroup ||| 3
  | invalidCopAccess => processorGroup ||| 4
  | trapLevel level => (processorGroup ||| 5) + UInt32.ofNat level.index.val
  | invalidTrapLevel => processorGroup ||| 9
  | arithmetic => processorGroup ||| 10
  | noMapping => memoryGroup
  | readProtection => memoryGroup ||| 1
  | writeProtection => memoryGroup ||| 2
  | execProtection => memoryGroup ||| 3
  | fetchMisaligned => memoryGroup ||| 4
  | dataMisaligned => memoryGroup ||| 5

def message : Exception → String
  | syscall immediate => "syscall " ++ Text.hex immediate.toNat
  | debug immediate => "debug " ++ Text.hex immediate.toNat
  | softwareException immediate => "software exception " ++ Text.hex immediate.toNat
  | illegalInstruction => "illegal instruction"
  | invalidCopAccess => "invalid coprocessor access"
  | trapLevel level => "trap to " ++ level.text
  | invalidTrapLevel => "invalid trap level"
  | arithmetic => "arithmetic fault"
  | noMapping => "no mapping"
  | readProtection => "read protection fault"
  | writeProtection => "write protection fault"
  | execProtection => "execute protection fault"
  | fetchMisaligned => "misaligned fetch"
  | dataMisaligned => "misaligned data access"

end Exception

end RiscBoard
