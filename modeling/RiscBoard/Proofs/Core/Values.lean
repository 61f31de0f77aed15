import RiscBoard.Core.Step

/-!
The operations of a core as changes of its fields. Each operation that is no instruction is one
record here, with the events left out, so that later proofs compare fields and open no operation.
-/

namespace RiscBoard

namespace RegisterFile

@[simp] theorem pc_setPc (file : RegisterFile) (value : UInt32) : (file.setPc value).pc = value :=
  get_set_self file .programCounter value

@[simp] theorem setPc_setPc (file : RegisterFile) (first second : UInt32) :
    (file.setPc first).setPc second = file.setPc second := by
  apply ext_get
  intro register
  simp only [setPc, get_set]
  split
  · rfl
  · rfl

/-- The program counter is not register 0. -/
@[simp] theorem pc_clearZero (file : RegisterFile) : file.clearZero.pc = file.pc :=
  get_set_of_ne file 0 (by decide)

end RegisterFile

namespace Core

def pipelineAfterTransfer (core : Core) : Pipeline :=
  if core.control.flushOnTransfer then .empty else core.pipeline

def mmuAt (core : Core) (level : PrivilegeLevel) : Mmu :=
  if level = core.privilege then core.mmu
  else { core.mmu with control := transitionControl core.mmu.control level }

@[simp] theorem value_flushOnTransfer (core : Core) :
    core.flushOnTransfer.value = { core with pipeline := core.pipelineAfterTransfer } := by
  unfold flushOnTransfer pipelineAfterTransfer
  split
  · rfl
  · rfl

@[simp] theorem value_setPrivilege (core : Core) (level : PrivilegeLevel) :
    (core.setPrivilege level).value =
      { core with privilege := level, mmu := core.mmuAt level } := by
  unfold setPrivilege mmuAt
  split
  · next same => rw [same]; rfl
  · rfl

@[simp] theorem value_raise (core : Core) (exception : Exception) :
    (core.raise exception).value =
      { core with
        registers := core.registers.setPc core.trap.handler
        pipeline := core.pipelineAfterTransfer
        privilege := core.privilege.raised
        trap := { core.trap with cause := exception.code, exceptionPc := core.pc }
        mmu := core.mmuAt core.privilege.raised } := by
  simp only [raise, Traced.value_bind, value_setPrivilege, value_flushOnTransfer]
  rfl

@[simp] theorem value_writeRegister (core : Core) (dest : Register) (value : UInt32) :
    (core.writeRegister dest value).value =
      { core with
        registers := core.registers.set dest value
        pipeline :=
          if dest = .programCounter then core.pipelineAfterTransfer else core.pipeline } := by
  unfold writeRegister
  split
  · exact value_flushOnTransfer _
  · rfl

@[simp] theorem value_readPhysical (core : Core) (physical : UInt32) (size : AccessSize) :
    (core.readPhysical physical size).value =
      ((core.bus.read physical size).value.1,
        { core with bus := (core.bus.read physical size).value.2 }) := rfl

end Core

end RiscBoard
