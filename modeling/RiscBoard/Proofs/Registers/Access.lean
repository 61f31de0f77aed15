import RiscBoard.Core.Step

/-!
Cores with other register files. How the operands of an instruction are read, how its results are
written and what the end of a cycle does to the registers are taken as parameters here. Fetches and
exceptions write the program counter alone and are those of every core.
-/

namespace RiscBoard

def Execution.conclude (execution : Execution) : Traced Core :=
  match execution.fault with
  | none => pure execution.core
  | some fault => execution.core.raise fault

/-- A way to use a register file. A read may be seen from outside. -/
structure RegisterAccess where
  read : RegisterFile → Register → Traced UInt32
  write : RegisterFile → Register → UInt32 → RegisterFile
  /-- What becomes of the registers at the end of a cycle. -/
  settle : RegisterFile → RegisterFile

namespace RegisterAccess

variable (access : RegisterAccess) (core : Core)

def writeRegister (dest : Register) (value : UInt32) : Traced Core :=
  let written := { core with registers := access.write core.registers dest value }
  if dest = .programCounter then written.flushOnTransfer else pure written

def deliver (dest : Register) (value : UInt32) : Traced Execution := do
  let written ← access.writeRegister core dest value
  pure written.completed

def executeAlu (op : AluOp) (dest : Register) (left right : UInt32) : Traced Execution := do
  let old ← access.read core.registers dest
  match op.apply old left right with
  | .error _ => pure (core.faulted .arithmetic)
  | .ok result => access.deliver core dest result

def executeBranch (condition : Condition) (link : Bool) (left right : Register)
    (target : UInt32 → UInt32) : Traced Execution := do
  let first ← access.read core.registers left
  let second ← access.read core.registers right
  if condition.test first second then do
    let linked := if link then access.write core.registers .link core.pc else core.registers
    let moved := { core with
      registers := access.write linked .programCounter (target core.pc) }
    let flushed ← moved.flushOnTransfer
    pure flushed.completed
  else
    pure core.completed

def readOffset (offset : Offset) : Traced UInt32 :=
  match offset with
  | .scaled index scale => do
    let value ← access.read core.registers index
    pure (value * scale)
  | .shifted index shift => do
    let value ← access.read core.registers index
    pure (value <<< shift)
  | .fixed immediate => pure immediate

def effectiveAddress (address : Address) : Traced UInt32 := do
  let base ← access.read core.registers address.base
  let offset ← access.readOffset core address.offset
  pure (if address.subtract then base - offset else base + offset)

def executeLoad (size : AccessSize) (dest : Register) (address : Address) :
    Traced Execution := do
  let location ← access.effectiveAddress core address
  match core.mmu.translate location size .read with
  | .error fault => pure (core.faulted fault)
  | .ok physical => do
    let (value, loaded) ← core.readPhysical physical size
    access.deliver loaded dest value

def executeStore (size : AccessSize) (source : Register) (address : Address) :
    Traced Execution := do
  let location ← access.effectiveAddress core address
  let value ← access.read core.registers source
  match core.mmu.translate location size .write with
  | .error fault => pure (core.faulted fault)
  | .ok physical => do
    let stored ← core.writePhysical physical value size
    pure stored.completed

def execute (instruction : Instruction) : Traced Execution :=
  match instruction with
  | .aluRegister op dest left right => do
    let first ← access.read core.registers left
    let second ← access.read core.registers right
    access.executeAlu core op dest first second
  | .aluImmediate op dest immediate => do
    let first ← access.read core.registers dest
    access.executeAlu core op dest first immediate
  | .branch condition link left right distance =>
    access.executeBranch core condition link left right fun pc => pc + distance.toUInt32
  | .branchRegister condition link relative left right target => do
    let value ← access.read core.registers target
    access.executeBranch core condition link left right fun pc =>
      if relative then pc + value else value
  | .moveToCop source cop cell => do
    let value ← access.read core.registers source
    match core.writeCop cop cell value with
    | .error _ => pure (core.faulted .invalidCopAccess)
    | .ok written => pure written.completed
  | .moveFromCop dest cop cell =>
    match core.readCop cop cell with
    | .error _ => pure (core.faulted .invalidCopAccess)
    | .ok value => access.deliver core dest value
  | .syscall immediate => core.executeHook .syscall immediate (.syscall immediate)
  | .trapLevel level => do
    Traced.log (.reservedTrap level)
    pure (core.faulted .illegalInstruction)
  | .debug immediate => core.executeHook .debug immediate (.debug immediate)
  | .softwareException immediate => pure (core.faulted (.softwareException immediate))
  | .load size dest address => access.executeLoad core size dest address
  | .store size source address => access.executeStore core size source address
  | .loadAddress dest address => do
    let location ← access.effectiveAddress core address
    access.deliver core dest location
  | .loadImmediate dest immediate shift => access.deliver core dest (immediate <<< shift)
  | .setIf condition dest source immediate => do
    let value ← access.read core.registers source
    access.deliver core dest (if condition.test value immediate then 1 else 0)
  | .coprocessor word => do
    Traced.log (.coprocessorIgnored word)
    pure core.completed

def executeWord (word : UInt32) : Traced Execution :=
  match Instruction.decode word with
  | .error error => do
    Traced.log (.undecodable word error)
    pure (core.faulted .illegalInstruction)
  | .ok instruction => do
    Traced.log (.executing (core.pc - 12) instruction)
    access.execute core instruction

def executeOldest : Traced Core := do
  let execution ← access.executeWord core core.pipeline.executing
  execution.conclude

def retire : Core :=
  { core with registers := access.settle core.registers, cycles := core.cycles + 1 }

def step : Traced Core :=
  if core.halted then pure core
  else do
    let fetched ← core.fetch
    let executed ← access.executeOldest fetched
    pure (access.retire executed)

def steps (core : Core) : Nat → Traced Core
  | 0 => pure core
  | count + 1 => do
    let next ← access.step core
    steps next count

end RegisterAccess

end RiscBoard
