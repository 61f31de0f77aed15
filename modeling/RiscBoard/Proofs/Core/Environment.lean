import RiscBoard.Proofs.Core.Effect

/-!
A core and its environment, which is the bus and the host. Instructions that neither access memory nor
ask the host do not see the environment, so that their execution commutes with an exchange of it.
-/

namespace RiscBoard

def Instruction.usesEnvironment : Instruction → Bool
  | .load .. | .store .. | .syscall _ | .debug _ => true
  | _ => false

namespace Core

def within (core : Core) (host : Option Host) (bus : Bus) : Core :=
  { core with host := host, bus := bus }

end Core

def Execution.within (execution : Execution) (host : Option Host) (bus : Bus) : Execution :=
  ⟨execution.core.within host bus, execution.fault⟩

namespace Core

def answered (core : Core) (host : Host) (request : HookCall) (exception : Exception) : Execution :=
  let asked := { core with host := some (host.asked request) }
  match host.decides request with
  | .raise => asked.faulted exception
  | .resume => asked.completed
  | .halt => { asked with halted := true }.completed

theorem value_executeHook (core : Core) (kind : HookKind) (immediate : UInt32)
    (exception : Exception) :
    (core.executeHook kind immediate exception).value =
      match core.host with
      | none => core.faulted exception
      | some host => core.answered host ⟨kind, immediate, core.registers⟩ exception := by
  unfold executeHook answered
  cases core.host with
  | none => rfl
  | some host =>
    have action : (host.call ⟨kind, immediate, core.registers⟩).value.1 =
        host.decides ⟨kind, immediate, core.registers⟩ := rfl
    simp only [Traced.value_bind, action]
    cases host.decides ⟨kind, immediate, core.registers⟩ with
    | raise => rfl
    | resume => rfl
    | halt => rfl

theorem registers_executeHook (core : Core) (kind : HookKind) (immediate : UInt32)
    (exception : Exception) :
    (core.executeHook kind immediate exception).value.core.registers = core.registers := by
  rw [value_executeHook]
  cases core.host with
  | none => rfl
  | some host =>
    simp only [answered]
    split
    · rfl
    · rfl
    · rfl

theorem fault_executeHook {core : Core} {kind : HookKind} {immediate : UInt32}
    {exception fault : Exception}
    (faults : (core.executeHook kind immediate exception).value.fault = some fault) :
    fault = exception := by
  rw [value_executeHook] at faults
  split at faults
  · exact (Option.some.inj faults).symm
  · unfold answered at faults
    split at faults
    · exact (Option.some.inj faults).symm
    · cases faults
    · cases faults

variable (core : Core) (host : Option Host) (bus : Bus)

theorem raise_within (exception : Exception) :
    ((core.within host bus).raise exception).value =
      (core.raise exception).value.within host bus := by
  rw [value_raise, value_raise]
  rfl

theorem deliver_within (dest : Register) (value : UInt32) :
    ((core.within host bus).deliver dest value).value =
      (core.deliver dest value).value.within host bus := by
  simp only [deliver, Traced.value_bind, value_writeRegister]
  rfl

theorem executeAlu_within (op : AluOp) (dest : Register) (left right : UInt32) :
    ((core.within host bus).executeAlu op dest left right).value =
      (core.executeAlu op dest left right).value.within host bus := by
  unfold executeAlu
  rw [show (core.within host bus).registers = core.registers from rfl]
  cases op.apply (core.registers.get dest) left right with
  | error _ => rfl
  | ok result => exact core.deliver_within host bus dest result

theorem executeBranch_within (condition : Condition) (link : Bool) (left right : Register)
    (target : UInt32 → UInt32) :
    ((core.within host bus).executeBranch condition link left right target).value =
      (core.executeBranch condition link left right target).value.within host bus := by
  unfold executeBranch
  rw [show (core.within host bus).registers = core.registers from rfl,
    show (core.within host bus).pc = core.pc from rfl]
  cases condition.test (core.registers.get left) (core.registers.get right) with
  | false => rfl
  | true =>
    simp only [↓reduceIte, Traced.value_bind, value_flushOnTransfer]
    rfl

theorem cell_within (register : CopRegister) :
    (core.within host bus).cell register = core.cell register := by
  cases register with
  | mapWord slot field => rfl
  | _ => rfl

theorem setCell_within (register : CopRegister) (value : UInt32) :
    (core.within host bus).setCell register value =
      (core.setCell register value).within host bus := by
  cases register with
  | mapWord slot field => rfl
  | _ => rfl

theorem execute_within {instruction : Instruction}
    (internal : instruction.usesEnvironment = false) :
    ((core.within host bus).execute instruction).value =
      (core.execute instruction).value.within host bus := by
  cases instruction with
  | aluRegister op dest left right => exact core.executeAlu_within host bus op dest _ _
  | aluImmediate op dest immediate => exact core.executeAlu_within host bus op dest _ _
  | branch condition link left right distance =>
    exact core.executeBranch_within host bus condition link left right _
  | branchRegister condition link relative left right target =>
    exact core.executeBranch_within host bus condition link left right _
  | moveToCop source cop cell =>
    simp only [execute, writeCop]
    cases CopRegister.resolve cop cell with
    | error _ => rfl
    | ok register =>
      have moved := core.setCell_within host bus register (core.registers.get source)
      exact congrArg completed moved
  | moveFromCop dest cop cell =>
    simp only [execute, readCop]
    cases CopRegister.resolve cop cell with
    | error _ => rfl
    | ok register =>
      simp only [Except.map, cell_within]
      exact core.deliver_within host bus dest _
  | syscall immediate => cases internal
  | trapLevel level => rfl
  | debug immediate => cases internal
  | softwareException immediate => rfl
  | load size dest address => cases internal
  | store size source address => cases internal
  | loadAddress dest address => exact core.deliver_within host bus dest _
  | loadImmediate dest immediate shift => exact core.deliver_within host bus dest _
  | setIf condition dest source immediate => exact core.deliver_within host bus dest _
  | coprocessor word => rfl

/-- An instruction that does not see the environment leaves it, too. -/
theorem environment_execute {instruction : Instruction}
    (internal : instruction.usesEnvironment = false) :
    (core.execute instruction).value.core.host = core.host ∧
      (core.execute instruction).value.core.bus = core.bus := by
  -- The core is its own exchange, and the exchange comes out as it went in.
  have same := core.execute_within core.host core.bus internal
  rw [show core.within core.host core.bus = core from rfl] at same
  rw [same]
  exact ⟨rfl, rfl⟩

end Core

end RiscBoard
