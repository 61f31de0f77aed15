import RiscBoard.Core.Basic

/-!
The effect of single instructions. An instruction either changes the core or names the fault that
the core has to take; a branch is taken relative to the program counter as it stands, which is three
words past the branch.
-/

namespace RiscBoard

structure Execution where
  core : Core
  fault : Option Exception

namespace Core

def completed (core : Core) : Execution := ⟨core, none⟩

def faulted (core : Core) (fault : Exception) : Execution := ⟨core, some fault⟩

/-- Writes a destination register. To write the program counter is a transfer of control. -/
def writeRegister (core : Core) (dest : Register) (value : UInt32) : Traced Core :=
  let written := { core with registers := core.registers.set dest value }
  if dest = .programCounter then written.flushOnTransfer else pure written

def deliver (core : Core) (dest : Register) (value : UInt32) : Traced Execution := do
  let written ← core.writeRegister dest value
  pure written.completed

def executeAlu (core : Core) (op : AluOp) (dest : Register) (left right : UInt32) :
    Traced Execution :=
  match op.apply (core.registers.get dest) left right with
  | .error _ => pure (core.faulted .arithmetic)
  | .ok result => core.deliver dest result

/-- A branch whose target is a function of the program counter. The target and the comparison use
the registers from before the link is written. -/
def executeBranch (core : Core) (condition : Condition) (link : Bool) (left right : Register)
    (target : UInt32 → UInt32) : Traced Execution :=
  if condition.test (core.registers.get left) (core.registers.get right) then do
    let linked :=
      if link then core.registers.set .link core.pc else core.registers
    let moved := { core with registers := linked.setPc (target core.pc) }
    let flushed ← moved.flushOnTransfer
    pure flushed.completed
  else
    pure core.completed

def effectiveAddress (core : Core) (address : Address) : UInt32 :=
  let base := core.registers.get address.base
  let offset :=
    match address.offset with
    | .scaled index scale => core.registers.get index * scale
    | .shifted index shift => core.registers.get index <<< shift
    | .fixed immediate => immediate
  if address.subtract then base - offset else base + offset

def executeLoad (core : Core) (size : AccessSize) (dest : Register) (address : Address) :
    Traced Execution :=
  match core.mmu.translate (core.effectiveAddress address) size .read with
  | .error fault => pure (core.faulted fault)
  | .ok physical => do
    let (value, loaded) ← core.readPhysical physical size
    loaded.deliver dest value

def executeStore (core : Core) (size : AccessSize) (source : Register) (address : Address) :
    Traced Execution :=
  match core.mmu.translate (core.effectiveAddress address) size .write with
  | .error fault => pure (core.faulted fault)
  | .ok physical => do
    let stored ← core.writePhysical physical (core.registers.get source) size
    pure stored.completed

def executeHook (core : Core) (kind : HookKind) (immediate : UInt32) (exception : Exception) :
    Traced Execution :=
  match core.host with
  | none => pure (core.faulted exception)
  | some host => do
    let (action, asked) ← host.call ⟨kind, immediate, core.registers⟩
    let answered := { core with host := some asked }
    match action with
    | .raise => pure (answered.faulted exception)
    | .resume => pure answered.completed
    | .halt => do
      let stopped ← answered.halt
      pure stopped.completed

def execute (core : Core) (instruction : Instruction) : Traced Execution :=
  match instruction with
  | .aluRegister op dest left right =>
    core.executeAlu op dest (core.registers.get left) (core.registers.get right)
  | .aluImmediate op dest immediate =>
    core.executeAlu op dest (core.registers.get dest) immediate
  | .branch condition link left right distance =>
    core.executeBranch condition link left right fun pc => pc + distance.toUInt32
  | .branchRegister condition link relative left right target =>
    let value := core.registers.get target
    core.executeBranch condition link left right fun pc => if relative then pc + value else value
  | .moveToCop source cop cell =>
    match core.writeCop cop cell (core.registers.get source) with
    | .error _ => pure (core.faulted .invalidCopAccess)
    | .ok written => pure written.completed
  | .moveFromCop dest cop cell =>
    match core.readCop cop cell with
    | .error _ => pure (core.faulted .invalidCopAccess)
    | .ok value => core.deliver dest value
  | .syscall immediate => core.executeHook .syscall immediate (.syscall immediate)
  | .trapLevel level => do
    Traced.log (.reservedTrap level)
    pure (core.faulted .illegalInstruction)
  | .debug immediate => core.executeHook .debug immediate (.debug immediate)
  | .softwareException immediate => pure (core.faulted (.softwareException immediate))
  | .load size dest address => core.executeLoad size dest address
  | .store size source address => core.executeStore size source address
  | .loadAddress dest address => core.deliver dest (core.effectiveAddress address)
  | .loadImmediate dest immediate shift => core.deliver dest (immediate <<< shift)
  | .setIf condition dest source immediate =>
    core.deliver dest (if condition.test (core.registers.get source) immediate then 1 else 0)
  | .coprocessor word => do
    Traced.log (.coprocessorIgnored word)
    pure core.completed

def executeWord (core : Core) (word : UInt32) : Traced Execution :=
  match Instruction.decode word with
  | .error error => do
    Traced.log (.undecodable word error)
    pure (core.faulted .illegalInstruction)
  | .ok instruction => do
    Traced.log (.executing (core.pc - 12) instruction)
    core.execute instruction

end Core

end RiscBoard
