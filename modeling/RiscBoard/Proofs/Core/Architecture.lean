import RiscBoard.Proofs.Core.Flow

/-!
The part of a core that instructions can see. No instruction looks at the words in flight or at the
cycle counter, so that execution commutes with erasing them.
-/

namespace RiscBoard

namespace Core

def architecture (core : Core) : Core := { core with pipeline := .empty, cycles := 0 }

def clearZero (core : Core) : Core := { core with registers := core.registers.clearZero }

/-- What a program leaves behind: the core without the words in flight, the cycle counter and the
program counter. -/
def visible (core : Core) : Core := core.architecture.setPc 0

def perform (core : Core) (word : UInt32) : Core :=
  (core.executeWord word).value.settled.clearZero

end Core

def Execution.architecture (execution : Execution) : Execution :=
  ⟨execution.core.architecture, execution.fault⟩

namespace Core

@[simp] theorem pipelineAfterTransfer_architecture (core : Core) :
    core.architecture.pipelineAfterTransfer = .empty := by
  unfold pipelineAfterTransfer
  split
  · rfl
  · rfl

theorem raise_architecture (core : Core) (exception : Exception) :
    (core.architecture.raise exception).value = (core.raise exception).value.architecture := by
  rw [value_raise, value_raise, pipelineAfterTransfer_architecture]
  rfl

theorem settled_architecture (execution : Execution) :
    execution.architecture.settled = execution.settled.architecture := by
  obtain ⟨core, fault⟩ := execution
  cases fault with
  | none => rfl
  | some fault => exact core.raise_architecture fault

theorem writeRegister_architecture (core : Core) (dest : Register) (value : UInt32) :
    (core.architecture.writeRegister dest value).value =
      (core.writeRegister dest value).value.architecture := by
  rw [value_writeRegister, value_writeRegister, pipelineAfterTransfer_architecture]
  -- Erasing leaves an empty pipeline, so that a flush after it changes nothing.
  split
  · rfl
  · rfl

theorem setCell_architecture (core : Core) (register : CopRegister) (value : UInt32) :
    core.architecture.setCell register value = (core.setCell register value).architecture := by
  cases register with
  | control0 => rfl
  | control1 => rfl
  | cause => rfl
  | handler => rfl
  | exceptionPc => rfl
  | mmuControl => rfl
  | mapWord slot field => rfl

theorem cell_architecture (core : Core) (register : CopRegister) :
    core.architecture.cell register = core.cell register := by
  cases register with
  | control0 => rfl
  | control1 => rfl
  | cause => rfl
  | handler => rfl
  | exceptionPc => rfl
  | mmuControl => rfl
  | mapWord slot field => rfl

theorem deliver_architecture (core : Core) (dest : Register) (value : UInt32) :
    (core.architecture.deliver dest value).value =
      (core.deliver dest value).value.architecture := by
  simp only [deliver, Traced.value_bind, writeRegister_architecture]
  rfl

theorem executeAlu_architecture (core : Core) (op : AluOp) (dest : Register)
    (left right : UInt32) :
    (core.architecture.executeAlu op dest left right).value =
      (core.executeAlu op dest left right).value.architecture := by
  unfold executeAlu
  rw [show core.architecture.registers = core.registers from rfl]
  cases op.apply (core.registers.get dest) left right with
  | error _ => rfl
  | ok result => exact core.deliver_architecture dest result

theorem executeBranch_architecture (core : Core) (condition : Condition) (link : Bool)
    (left right : Register) (target : UInt32 → UInt32) :
    (core.architecture.executeBranch condition link left right target).value =
      (core.executeBranch condition link left right target).value.architecture := by
  unfold executeBranch
  rw [show core.architecture.registers = core.registers from rfl,
    show core.architecture.pc = core.pc from rfl]
  cases condition.test (core.registers.get left) (core.registers.get right) with
  | false => rfl
  | true =>
    have emptied := core.pipelineAfterTransfer_architecture
    simp only [↓reduceIte, Traced.value_bind, value_flushOnTransfer]
    simp only [pipelineAfterTransfer] at emptied ⊢
    rw [emptied]
    rfl

theorem executeLoad_architecture (core : Core) (size : AccessSize) (dest : Register)
    (address : Address) :
    (core.architecture.executeLoad size dest address).value =
      (core.executeLoad size dest address).value.architecture := by
  unfold executeLoad
  rw [show core.architecture.mmu = core.mmu from rfl,
    show core.architecture.effectiveAddress address = core.effectiveAddress address from rfl]
  cases core.mmu.translate (core.effectiveAddress address) size .read with
  | error fault => rfl
  | ok physical =>
    have delivered := deliver_architecture
      { core with bus := (core.bus.read physical size).value.2 } dest
      (core.bus.read physical size).value.1
    exact delivered

theorem executeStore_architecture (core : Core) (size : AccessSize) (source : Register)
    (address : Address) :
    (core.architecture.executeStore size source address).value =
      (core.executeStore size source address).value.architecture := by
  unfold executeStore
  rw [show core.architecture.mmu = core.mmu from rfl,
    show core.architecture.effectiveAddress address = core.effectiveAddress address from rfl]
  cases core.mmu.translate (core.effectiveAddress address) size .write with
  | error fault => rfl
  | ok physical => rfl

theorem executeHook_architecture (core : Core) (kind : HookKind) (immediate : UInt32)
    (exception : Exception) :
    (core.architecture.executeHook kind immediate exception).value =
      (core.executeHook kind immediate exception).value.architecture := by
  unfold executeHook
  rw [show core.architecture.host = core.host from rfl]
  cases core.host with
  | none => rfl
  | some host =>
    rw [show core.architecture.registers = core.registers from rfl]
    simp only [Traced.value_bind]
    cases (host.call ⟨kind, immediate, core.registers⟩).value.1 with
    | raise => rfl
    | resume => rfl
    | halt => rfl

theorem execute_architecture (core : Core) (instruction : Instruction) :
    (core.architecture.execute instruction).value =
      (core.execute instruction).value.architecture := by
  cases instruction with
  | aluRegister op dest left right => exact core.executeAlu_architecture op dest _ _
  | aluImmediate op dest immediate => exact core.executeAlu_architecture op dest _ _
  | branch condition link left right distance =>
    exact core.executeBranch_architecture condition link left right _
  | branchRegister condition link relative left right target =>
    exact core.executeBranch_architecture condition link left right _
  | moveToCop source cop cell =>
    simp only [execute, writeCop]
    cases CopRegister.resolve cop cell with
    | error _ => rfl
    | ok register =>
      have moved := core.setCell_architecture register (core.registers.get source)
      exact congrArg completed moved
  | moveFromCop dest cop cell =>
    simp only [execute, readCop]
    cases CopRegister.resolve cop cell with
    | error _ => rfl
    | ok register =>
      simp only [Except.map, cell_architecture]
      exact core.deliver_architecture dest _
  | syscall immediate => exact core.executeHook_architecture _ _ _
  | trapLevel level => rfl
  | debug immediate => exact core.executeHook_architecture _ _ _
  | softwareException immediate => rfl
  | load size dest address => exact core.executeLoad_architecture size dest address
  | store size source address => exact core.executeStore_architecture size source address
  | loadAddress dest address => exact core.deliver_architecture dest _
  | loadImmediate dest immediate shift => exact core.deliver_architecture dest _
  | setIf condition dest source immediate => exact core.deliver_architecture dest _
  | coprocessor word => rfl

/-- A word is executed in the same way whatever is in flight. -/
theorem executeWord_architecture (core : Core) (word : UInt32) :
    (core.architecture.executeWord word).value =
      (core.executeWord word).value.architecture := by
  cases decoded : Instruction.decode word with
  | error error =>
    rw [executeWord_of_undecodable _ decoded, executeWord_of_undecodable _ decoded]
    rfl
  | ok instruction =>
    rw [executeWord_of_decode _ decoded, executeWord_of_decode _ decoded]
    exact core.execute_architecture instruction

theorem perform_architecture (core : Core) (word : UInt32) :
    core.architecture.perform word = (core.perform word).architecture := by
  unfold perform
  rw [executeWord_architecture, settled_architecture]
  rfl

theorem transfersFlow_architecture (core : Core) (word : UInt32) :
    core.architecture.transfersFlow word = core.transfersFlow word := by
  unfold transfersFlow
  rw [executeWord_architecture]
  rfl

section Agreement

variable {core other : Core}

theorem perform_visible (same : core.architecture = other.architecture) (word : UInt32) :
    (core.perform word).visible = (other.perform word).visible := by
  have performed := congrArg (Core.perform · word) same
  simp only [perform_architecture] at performed
  exact congrArg (Core.setPc · 0) performed

theorem perform_pc (same : core.architecture = other.architecture) (word : UInt32) :
    (core.perform word).pc = (other.perform word).pc := by
  have performed := congrArg (Core.perform · word) same
  simp only [perform_architecture] at performed
  have same : (core.perform word).architecture.pc = (other.perform word).architecture.pc :=
    congrArg Core.pc performed
  exact same

theorem transfersFlow_eq (same : core.architecture = other.architecture) (word : UInt32) :
    core.transfersFlow word = other.transfersFlow word := by
  rw [← core.transfersFlow_architecture, same, other.transfersFlow_architecture]

theorem architecture_setPc (same : core.visible = other.visible) (address : UInt32) :
    (core.setPc address).architecture = (other.setPc address).architecture := by
  have moved := congrArg (Core.setPc · address) same
  simp only [visible, setPc, RegisterFile.setPc_setPc] at moved
  exact moved

end Agreement

theorem visible_step {core : Core} (running : core.halted = false) :
    core.step.value.visible = (core.fetch.value.perform core.executing).visible := by
  rw [step_of_running running]
  rfl

theorem pc_step {core : Core} (running : core.halted = false) :
    core.step.value.pc = (core.fetch.value.perform core.executing).pc := by
  rw [step_of_running running]
  rfl

end Core

end RiscBoard
