import RiscBoard.Bus.Dispatch
import RiscBoard.Core.System
import RiscBoard.Coprocessor
import RiscBoard.Host
import RiscBoard.Mmu.Basic
import RiscBoard.Pipeline

/-!
The state of a core and the operations that are no instructions: reset, changes of privilege, taking
exceptions, access to coprocessor cells and to virtual memory.
-/

namespace RiscBoard

structure Core where
  /-- Where the program counter starts after a reset. -/
  resetVector : UInt32
  registers : RegisterFile
  pipeline : Pipeline
  privilege : PrivilegeLevel
  control : ControlWords
  trap : TrapRegisters
  mmu : Mmu
  /-- No host is asked when there is none. -/
  host : Option Host
  /-- A halted core does nothing until it is reset. -/
  halted : Bool
  /-- The cycles since the last reset. -/
  cycles : UInt64
  bus : Bus

namespace Core

def create (resetVector : UInt32) (bus : Bus) : Core where
  resetVector := resetVector
  registers := RegisterFile.cleared.setPc resetVector
  pipeline := .empty
  privilege := .level0
  control := .cleared
  trap := .reset
  mmu := .cleared
  host := none
  halted := false
  cycles := 0
  bus := bus

def reset (core : Core) : Core :=
  { create core.resetVector core.bus with host := core.host }

def pc (core : Core) : UInt32 := core.registers.pc

def setPc (core : Core) (address : UInt32) : Core :=
  { core with registers := core.registers.setPc address }

def halt (core : Core) : Traced Core := do
  Traced.log (.coreHalted core.cycles)
  pure { core with halted := true }

def flushOnTransfer (core : Core) : Traced Core :=
  if core.control.flushOnTransfer then do
    Traced.log .pipelineFlushed
    pure { core with pipeline := .empty }
  else
    pure core

def transitionControl (control : MmuControl) (level : PrivilegeLevel) : MmuControl :=
  let remapped :=
    if control.remapOnTransition then control.setActiveTable level.index else control
  match level with
  | .level0 => if remapped.disableOnLevel0 then remapped.setEnabled false else remapped
  | .level1 => if remapped.enableOnLevel1 then remapped.setEnabled true else remapped
  | _ => remapped

/-- Moves to a level and applies the policies of the control word; nothing happens at that level
already. -/
def setPrivilege (core : Core) (level : PrivilegeLevel) : Traced Core :=
  if level = core.privilege then pure core
  else do
    Traced.log (.privilegeChanged core.privilege level)
    pure { core with
      privilege := level
      mmu := { core.mmu with control := transitionControl core.mmu.control level } }

def raise (core : Core) (exception : Exception) : Traced Core := do
  Traced.log (.exceptionTaken core.pc core.privilege exception)
  let trap := { core.trap with cause := exception.code, exceptionPc := core.pc }
  let entered := { core with trap := trap, registers := core.registers.setPc core.trap.handler }
  let raised ← entered.setPrivilege entered.privilege.raised
  raised.flushOnTransfer

def cell (core : Core) : CopRegister → UInt32
  | .control0 => core.control.word0
  | .control1 => core.control.word1
  | .cause => core.trap.cause
  | .handler => core.trap.handler
  | .exceptionPc => core.trap.exceptionPc
  | .mmuControl => core.mmu.control.word
  | .mapWord slot field => (core.mmu.activeTable.get slot).word field

def setCell (core : Core) (register : CopRegister) (value : UInt32) : Core :=
  match register with
  | .control0 => { core with control := { core.control with word0 := value } }
  | .control1 => { core with control := { core.control with word1 := value } }
  | .cause => { core with trap := { core.trap with cause := value } }
  | .handler => { core with trap := { core.trap with handler := value } }
  | .exceptionPc => { core with trap := { core.trap with exceptionPc := value } }
  | .mmuControl => { core with mmu := { core.mmu with control := ⟨value⟩ } }
  | .mapWord slot field =>
    let table := core.mmu.activeTable
    let changed := table.set slot ((table.get slot).setWord field value)
    { core with mmu := core.mmu.setActiveTable changed }

def readCop (core : Core) (cop : UInt8) (cell : UInt16) : Except InvalidCopRegister UInt32 :=
  (CopRegister.resolve cop cell).map core.cell

def writeCop (core : Core) (cop : UInt8) (cell : UInt16) (value : UInt32) :
    Except InvalidCopRegister Core :=
  (CopRegister.resolve cop cell).map fun register => core.setCell register value

def readPhysical (core : Core) (physical : UInt32) (size : AccessSize) :
    Traced (UInt32 × Core) := do
  let (value, bus) ← core.bus.read physical size
  pure (value, { core with bus := bus })

def writePhysical (core : Core) (physical value : UInt32) (size : AccessSize) : Traced Core := do
  let bus ← core.bus.write physical value size
  pure { core with bus := bus }

/-- A read at a virtual address, as a program would do it: a fault is taken and reads as zero. -/
def readVirtual (core : Core) (address : UInt32) (size : AccessSize) : Traced (UInt32 × Core) :=
  match core.mmu.translate address size .read with
  | .error fault => do
    let raised ← core.raise fault
    pure (0, raised)
  | .ok physical => core.readPhysical physical size

def writeVirtual (core : Core) (address value : UInt32) (size : AccessSize) : Traced Core :=
  match core.mmu.translate address size .write with
  | .error fault => core.raise fault
  | .ok physical => core.writePhysical physical value size

end Core

end RiscBoard
