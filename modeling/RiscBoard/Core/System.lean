import RiscBoard.Exception
import RiscBoard.Word

/-!
The registers of coprocessor 0: two control words, of which only the first has flags, and the three
registers through which exceptions are taken.
-/

namespace RiscBoard

structure ControlWords where
  word0 : UInt32
  word1 : UInt32
  deriving DecidableEq

namespace ControlWords

open Word

def cleared : ControlWords := ⟨0, 0⟩

def stackedIsr (control : ControlWords) : Bool := bit control.word0 0

def flushOnInterrupt (control : ControlWords) : Bool := bit control.word0 1

def stallOnAccess (control : ControlWords) : Bool := bit control.word0 2

/-- Branches, writes to the program counter and exceptions empty the pipeline. -/
def flushOnTransfer (control : ControlWords) : Bool := bit control.word0 3

def setFlushOnTransfer (control : ControlWords) (value : Bool) : ControlWords :=
  { control with word0 := setBit control.word0 3 value }

end ControlWords

structure TrapRegisters where
  cause : UInt32
  handler : UInt32
  exceptionPc : UInt32
  deriving DecidableEq

def TrapRegisters.reset : TrapRegisters := ⟨Exception.resetCause, 0, 0⟩

end RiscBoard
