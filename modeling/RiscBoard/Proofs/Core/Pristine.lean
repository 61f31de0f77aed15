import RiscBoard.Proofs.Bus.Blank
import RiscBoard.Proofs.Core.Cycle

/-!
What a core keeps for good. It resets to the same address always, and its bus has the same memories at
the same places, whatever the core executes and whatever its host does to it between two cycles.
-/

namespace RiscBoard

inductive CoreOperation where
  | readBus (physical : UInt32) (size : AccessSize)
  | writeBus (physical value : UInt32) (size : AccessSize)
  | readPort (port : UInt16) (size : AccessSize)
  | writePort (port : UInt16) (value : UInt32) (size : AccessSize)
  | readVirtual (address : UInt32) (size : AccessSize)
  | writeVirtual (address value : UInt32) (size : AccessSize)
  | writeCop (cop : UInt8) (cell : UInt16) (value : UInt32)
  | setPc (address : UInt32)
  | changeRegisters (change : RegisterFile → RegisterFile)
  | changeControl (change : ControlWords → ControlWords)
  | changeTrap (change : TrapRegisters → TrapRegisters)
  | changeMmu (change : Mmu → Mmu)
  | setPrivilege (level : PrivilegeLevel)
  | raise (exception : Exception)
  | halt
  | installHost (host : Host)
  | reset

namespace Bus

@[simp] theorem blank_readPort (bus : Bus) (port : UInt16) (size : AccessSize) :
    (bus.readPort port size).value.2.blank = bus.blank := by
  unfold readPort
  split
  · rfl
  · rfl

@[simp] theorem blank_writePort (bus : Bus) (port : UInt16) (value : UInt32) (size : AccessSize) :
    (bus.writePort port value size).value.blank = bus.blank := by
  unfold writePort
  split
  · rfl
  · rfl

end Bus

namespace Core

/-- Does what the host wants. A cell that does not exist is not written. -/
def operate (core : Core) : CoreOperation → Traced Core
  | .readBus physical size => do
    let (_, asked) ← core.readPhysical physical size
    pure asked
  | .writeBus physical value size => core.writePhysical physical value size
  | .readPort port size => do
    let (_, bus) ← core.bus.readPort port size
    pure { core with bus := bus }
  | .writePort port value size => do
    let bus ← core.bus.writePort port value size
    pure { core with bus := bus }
  | .readVirtual address size => do
    let (_, asked) ← core.readVirtual address size
    pure asked
  | .writeVirtual address value size => core.writeVirtual address value size
  | .writeCop cop cell value => pure ((core.writeCop cop cell value).toOption.getD core)
  | .setPc address => pure (core.setPc address)
  | .changeRegisters change => pure { core with registers := change core.registers }
  | .changeControl change => pure { core with control := change core.control }
  | .changeTrap change => pure { core with trap := change core.trap }
  | .changeMmu change => pure { core with mmu := change core.mmu }
  | .setPrivilege level => core.setPrivilege level
  | .raise exception => core.raise exception
  | .halt => core.halt
  | .installHost host => pure { core with host := some host }
  | .reset => pure core.reset

def pristine (core : Core) : Core := create core.resetVector core.bus.blank

theorem pristine_eq {core other : Core} (vector : other.resetVector = core.resetVector)
    (bus : other.bus.blank = core.bus.blank) : other.pristine = core.pristine := by
  rw [pristine, pristine, vector, bus]

section Pristine

variable (core : Core)

@[simp] theorem pristine_raise (exception : Exception) :
    (core.raise exception).value.pristine = core.pristine := by
  rw [value_raise]
  rfl

@[simp] theorem pristine_writeRegister (dest : Register) (value : UInt32) :
    (core.writeRegister dest value).value.pristine = core.pristine := by
  rw [value_writeRegister]
  rfl

@[simp] theorem pristine_setCell (register : CopRegister) (value : UInt32) :
    (core.setCell register value).pristine = core.pristine := by
  rw [setCell_eq]
  rfl

@[simp] theorem pristine_readPhysical (physical : UInt32) (size : AccessSize) :
    (core.readPhysical physical size).value.2.pristine = core.pristine :=
  pristine_eq rfl (Bus.blank_read ..)

@[simp] theorem pristine_writePhysical (physical value : UInt32) (size : AccessSize) :
    (core.writePhysical physical value size).value.pristine = core.pristine :=
  pristine_eq rfl (Bus.blank_write ..)

end Pristine

theorem Effect.pristine {core : Core} {instruction : Instruction} {execution : Execution}
    (effect : Effect core instruction execution) :
    execution.core.pristine = core.pristine := by
  cases effect with
  | refused fault => rfl
  | raised host request fault present decided seen => rfl
  | resumed host request present decided seen stays => rfl
  | stopped host request present decided seen stays => rfl
  | idle stays => rfl
  | branched linked target saved taken => rfl
  | movedToCop source cop cell register is resolved => exact pristine_setCell ..
  | stored size source address physical is translated => exact pristine_eq rfl (Bus.blank_write ..)
  | loaded size dest address physical is translated =>
    exact (pristine_writeRegister ..).trans (pristine_eq rfl (Bus.blank_read ..))
  | delivered dest value target => exact pristine_writeRegister ..

theorem pristine_settled (core : Core) (word : UInt32) :
    (core.executeWord word).value.settled.pristine = core.pristine := by
  have executed : (core.executeWord word).value.core.pristine = core.pristine := by
    cases decoded : Instruction.decode word with
    | error error => rw [executeWord_of_undecodable core decoded]; rfl
    | ok instruction =>
      rw [executeWord_of_decode core decoded]
      exact (execute_effect core instruction).pristine
  unfold Execution.settled
  split
  next => exact executed
  next => rw [pristine_raise, executed]

theorem pristine_fetch (core : Core) : core.fetch.value.pristine = core.pristine := by
  cases translated : core.mmu.translate core.pc .exec .execute with
  | error fault =>
    rw [value_fetch_of_fault translated, pristine_raise]
    rfl
  | ok physical =>
    rw [value_fetch_of_ok translated]
    exact pristine_eq rfl (Bus.blank_read ..)

/-- A cycle keeps what a reset goes back to. -/
theorem pristine_step (core : Core) : core.step.value.pristine = core.pristine := by
  cases halted : core.halted with
  | true => rw [step_of_halted halted]
  | false =>
    rw [step_of_running halted]
    exact (pristine_settled core.fetch.value core.executing).trans core.pristine_fetch

theorem pristine_operate (core : Core) (operation : CoreOperation) :
    (core.operate operation).value.pristine = core.pristine := by
  cases operation with
  | readBus physical size => exact pristine_readPhysical ..
  | writeBus physical value size => exact pristine_writePhysical ..
  | readPort port size => exact pristine_eq rfl (Bus.blank_readPort ..)
  | writePort port value size => exact pristine_eq rfl (Bus.blank_writePort ..)
  | readVirtual address size =>
    simp only [operate, readVirtual]
    split
    next => exact pristine_raise ..
    next => exact pristine_readPhysical ..
  | writeVirtual address value size =>
    simp only [operate, writeVirtual]
    split
    next => exact pristine_raise ..
    next => exact pristine_writePhysical ..
  | writeCop cop cell value =>
    simp only [operate, writeCop]
    cases CopRegister.resolve cop cell with
    | error _ => rfl
    | ok register => exact pristine_setCell ..
  | setPrivilege level =>
    simp only [operate, value_setPrivilege]
    rfl
  | raise exception => exact pristine_raise ..
  | setPc _ | changeRegisters _ | changeControl _ | changeTrap _ | changeMmu _ | halt
  | installHost _ | reset => rfl

end Core

end RiscBoard
