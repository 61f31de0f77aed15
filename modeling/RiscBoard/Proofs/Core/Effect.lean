import RiscBoard.Proofs.Core.Values

/-!
What one instruction can do to a core. `Effect` lists the ways in which an execution can end, each
with everything that it changes; what instructions keep is read off it case by case. An execution
transfers control when it takes a branch, writes the program counter or ends in a fault.
-/

namespace RiscBoard

def Instruction.destination? : Instruction → Option Register
  | .aluRegister _ dest _ _ => some dest
  | .aluImmediate _ dest _ => some dest
  | .moveFromCop dest _ _ => some dest
  | .load _ dest _ => some dest
  | .loadAddress dest _ => some dest
  | .loadImmediate dest _ _ => some dest
  | .setIf _ dest _ _ => some dest
  | _ => none

def Instruction.movesTo? : Instruction → Option CopRegister
  | .moveToCop _ cop cell => (CopRegister.resolve cop cell).toOption
  | _ => none

def CopRegister.writtenBy? (word : UInt32) : Option CopRegister :=
  match Instruction.decode word with
  | .ok instruction => instruction.movesTo?
  | .error _ => none

def Execution.settled (execution : Execution) : Core :=
  match execution.fault with
  | none => execution.core
  | some fault => (execution.core.raise fault).value

@[simp] theorem Execution.settled_completed (core : Core) : core.completed.settled = core := rfl

@[simp] theorem Execution.settled_faulted (core : Core) (fault : Exception) :
    (core.faulted fault).settled = (core.raise fault).value := rfl

def Host.asked (host : Host) (request : HookCall) : Host :=
  { host with calls := request :: host.calls }

def Host.decides (host : Host) (request : HookCall) : HostAction :=
  host.answer (request :: host.calls)

namespace Core

def takesBranch (core : Core) : Instruction → Bool
  | .branch condition _ left right _ =>
    condition.test (core.registers.get left) (core.registers.get right)
  | .branchRegister condition _ _ left right _ =>
    condition.test (core.registers.get left) (core.registers.get right)
  | _ => false

/-- Whether an instruction that is done has set the program counter. -/
def redirects (core : Core) (instruction : Instruction) : Bool :=
  core.takesBranch instruction || instruction.destination? == some .programCounter

def transfersFlow (core : Core) (word : UInt32) : Bool :=
  (core.executeWord word).value.fault.isSome ||
    match Instruction.decode word with
    | .ok instruction => core.redirects instruction
    | .error _ => false

/-- The ways in which an instruction can end. -/
inductive Effect (core : Core) (instruction : Instruction) : Execution → Prop where
  /-- A fault comes before any change. -/
  | refused (fault : Exception) : Effect core instruction (core.faulted fault)
  /-- The host was asked and wants the exception to be taken. -/
  | raised (host : Host) (request : HookCall) (fault : Exception)
      (present : core.host = some host) (decided : host.decides request = .raise)
      (seen : request.registers = core.registers) :
      Effect core instruction ({ core with host := some (host.asked request) }.faulted fault)
  /-- The host serviced the instruction. -/
  | resumed (host : Host) (request : HookCall)
      (present : core.host = some host) (decided : host.decides request = .resume)
      (seen : request.registers = core.registers) (stays : core.redirects instruction = false) :
      Effect core instruction { core with host := some (host.asked request) }.completed
  /-- The host serviced the instruction and stopped the core. -/
  | stopped (host : Host) (request : HookCall)
      (present : core.host = some host) (decided : host.decides request = .halt)
      (seen : request.registers = core.registers) (stays : core.redirects instruction = false) :
      Effect core instruction
        { core with host := some (host.asked request), halted := true }.completed
  /-- An untaken branch, or a word for another coprocessor. -/
  | idle (stays : core.redirects instruction = false) : Effect core instruction core.completed
  | branched (linked : RegisterFile) (target : UInt32)
      (saved : linked = core.registers ∨ linked = core.registers.set .link core.pc)
      (taken : core.takesBranch instruction = true) :
      Effect core instruction
        { core with
          registers := linked.setPc target
          pipeline := core.pipelineAfterTransfer }.completed
  | movedToCop (source : Register) (cop : UInt8) (cell : UInt16) (register : CopRegister)
      (is : instruction = .moveToCop source cop cell)
      (resolved : CopRegister.resolve cop cell = .ok register) :
      Effect core instruction (core.setCell register (core.registers.get source)).completed
  | stored (size : AccessSize) (source : Register) (address : Address) (physical : UInt32)
      (is : instruction = .store size source address)
      (translated : core.mmu.translate (core.effectiveAddress address) size .write = .ok physical) :
      Effect core instruction
        { core with
          bus := (core.bus.write physical (core.registers.get source) size).value }.completed
  | loaded (size : AccessSize) (dest : Register) (address : Address) (physical : UInt32)
      (is : instruction = .load size dest address)
      (translated : core.mmu.translate (core.effectiveAddress address) size .read = .ok physical) :
      Effect core instruction
        ({ core with bus := (core.bus.read physical size).value.2 }.writeRegister dest
          (core.bus.read physical size).value.1).value.completed
  /-- A result that is computed from the core alone. -/
  | delivered (dest : Register) (value : UInt32) (target : instruction.destination? = some dest) :
      Effect core instruction (core.writeRegister dest value).value.completed

theorem setCell_eq (core : Core) (register : CopRegister) (value : UInt32) :
    core.setCell register value =
      { core with
        control := (core.setCell register value).control
        trap := (core.setCell register value).trap
        mmu := (core.setCell register value).mmu } := by
  cases register with
  | control0 => rfl
  | control1 => rfl
  | cause => rfl
  | handler => rfl
  | exceptionPc => rfl
  | mmuControl => rfl
  | mapWord slot field => rfl

/-- A value moved to a cell changes no other cell, unless that is a word of a mapping: the control word
of virtual memory selects the table whose words the cells show. -/
theorem cell_setCell_of_ne (core : Core) {register other : CopRegister} (value : UInt32)
    (distinct : register ≠ other) (plain : ∀ slot field, other ≠ .mapWord slot field) :
    (core.setCell register value).cell other = core.cell other := by
  cases other with
  | mapWord slot field => exact absurd rfl (plain slot field)
  | control0 =>
    cases register with
    | control0 => exact absurd rfl distinct
    | _ => rfl
  | control1 =>
    cases register with
    | control1 => exact absurd rfl distinct
    | _ => rfl
  | cause =>
    cases register with
    | cause => exact absurd rfl distinct
    | _ => rfl
  | handler =>
    cases register with
    | handler => exact absurd rfl distinct
    | _ => rfl
  | exceptionPc =>
    cases register with
    | exceptionPc => exact absurd rfl distinct
    | _ => rfl
  | mmuControl =>
    cases register with
    | mmuControl => exact absurd rfl distinct
    | _ => rfl

theorem redirects_of_destination (core : Core) {instruction : Instruction} {dest : Register}
    (target : instruction.destination? = some dest) :
    core.redirects instruction = decide (dest = .programCounter) := by
  have noBranch : core.takesBranch instruction = false := by
    cases instruction with
    | branch condition link left right distance => cases target
    | branchRegister condition link relative left right register => cases target
    | _ => rfl
  simp only [redirects, noBranch, target, Bool.false_or]
  rfl

namespace Effect

/-- A completed instruction leaves the privilege, the coprocessor registers and virtual memory, if
it does not move a value to one of their cells. -/
theorem frame {core : Core} {instruction : Instruction} {execution : Execution}
    (effect : Effect core instruction execution) (completes : execution.fault = none) :
    (∃ register value, instruction.movesTo? = some register ∧
      execution.core = core.setCell register value) ∨
    execution.core =
      { core with
        registers := execution.core.registers
        pipeline := execution.core.pipeline
        host := execution.core.host
        halted := execution.core.halted
        bus := execution.core.bus } := by
  cases effect with
  | refused fault => cases completes
  | raised host request fault present decided seen => cases completes
  | resumed host request present decided seen stays => exact .inr rfl
  | stopped host request present decided seen stays => exact .inr rfl
  | idle stays => exact .inr rfl
  | branched linked target saved taken => exact .inr rfl
  | movedToCop source cop cell register is resolved =>
    subst is
    have moves : (Instruction.moveToCop source cop cell).movesTo? = some register := by
      rw [Instruction.movesTo?, resolved]
      rfl
    exact .inl ⟨register, core.registers.get source, moves, rfl⟩
  | stored size source address physical is translated => exact .inr rfl
  | loaded size dest address physical is translated =>
    right
    rw [value_writeRegister]
    rfl
  | delivered dest value target =>
    right
    rw [value_writeRegister]
    rfl

end Effect

theorem executeAlu_effect (core : Core) {instruction : Instruction} (op : AluOp) (dest : Register)
    (left right : UInt32) (target : instruction.destination? = some dest) :
    Effect core instruction (core.executeAlu op dest left right).value := by
  unfold executeAlu
  split
  · exact .refused .arithmetic
  · next result _ => exact .delivered dest result target

theorem executeBranch_effect (core : Core) {instruction : Instruction} (condition : Condition)
    (link : Bool) (left right : Register) (target : UInt32 → UInt32)
    (branch : core.takesBranch instruction =
      condition.test (core.registers.get left) (core.registers.get right))
    (noDestination : instruction.destination? = none) :
    Effect core instruction (core.executeBranch condition link left right target).value := by
  unfold executeBranch
  split
  · next holds =>
    have taken : core.takesBranch instruction = true := by rw [branch, holds]
    simp only [Traced.value_bind, value_flushOnTransfer, Traced.value_pure]
    cases link with
    | true => exact .branched _ (target core.pc) (.inr rfl) taken
    | false => exact .branched _ (target core.pc) (.inl rfl) taken
  · next fails =>
    apply Effect.idle
    simp only [redirects, branch, fails, noDestination]
    rfl

theorem executeLoad_effect (core : Core) (size : AccessSize) (dest : Register)
    (address : Address) :
    Effect core (.load size dest address) (core.executeLoad size dest address).value := by
  unfold executeLoad
  split
  · next fault _ => exact .refused fault
  · next physical translated => exact .loaded size dest address physical rfl translated

theorem executeStore_effect (core : Core) (size : AccessSize) (source : Register)
    (address : Address) :
    Effect core (.store size source address) (core.executeStore size source address).value := by
  unfold executeStore
  split
  · next fault _ => exact .refused fault
  · next physical translated => exact .stored size source address physical rfl translated

theorem executeHook_effect (core : Core) {instruction : Instruction} (kind : HookKind)
    (immediate : UInt32) (exception : Exception) (stays : core.redirects instruction = false) :
    Effect core instruction (core.executeHook kind immediate exception).value := by
  unfold executeHook
  split
  · exact .refused exception
  · next host present =>
    let request : HookCall := ⟨kind, immediate, core.registers⟩
    simp only [Traced.value_bind, Host.call]
    split
    · next decided => exact .raised host request exception present decided rfl
    · next decided => exact .resumed host request present decided rfl stays
    · next decided => exact .stopped host request present decided rfl stays

theorem execute_effect (core : Core) (instruction : Instruction) :
    Effect core instruction (core.execute instruction).value := by
  cases instruction with
  | aluRegister op dest left right => exact executeAlu_effect core op dest _ _ rfl
  | aluImmediate op dest immediate => exact executeAlu_effect core op dest _ _ rfl
  | branch condition link left right distance =>
    exact executeBranch_effect core condition link left right _ rfl rfl
  | branchRegister condition link relative left right target =>
    exact executeBranch_effect core condition link left right _ rfl rfl
  | moveToCop source cop cell =>
    simp only [execute, writeCop]
    cases resolved : CopRegister.resolve cop cell with
    | error _ => exact .refused .invalidCopAccess
    | ok register => exact .movedToCop source cop cell register rfl resolved
  | moveFromCop dest cop cell =>
    simp only [execute, readCop]
    cases CopRegister.resolve cop cell with
    | error _ => exact .refused .invalidCopAccess
    | ok register => exact .delivered dest (core.cell register) rfl
  | syscall immediate => exact executeHook_effect core _ _ _ rfl
  | trapLevel level => exact .refused .illegalInstruction
  | debug immediate => exact executeHook_effect core _ _ _ rfl
  | softwareException immediate => exact .refused _
  | load size dest address => exact executeLoad_effect core size dest address
  | store size source address => exact executeStore_effect core size source address
  | loadAddress dest address => exact .delivered dest _ rfl
  | loadImmediate dest immediate shift => exact .delivered dest _ rfl
  | setIf condition dest source immediate => exact .delivered dest _ rfl
  | coprocessor word => exact .idle rfl

theorem executeWord_of_undecodable (core : Core) {word : UInt32} {error : DecodeError}
    (undecodable : Instruction.decode word = .error error) :
    (core.executeWord word).value = core.faulted .illegalInstruction := by
  simp only [executeWord, undecodable]
  rfl

theorem executeWord_of_decode (core : Core) {word : UInt32} {instruction : Instruction}
    (decoded : Instruction.decode word = .ok instruction) :
    (core.executeWord word).value = (core.execute instruction).value := by
  simp only [executeWord, decoded]
  rfl

theorem fault_of_writtenBy (core : Core) {word : UInt32} {register : CopRegister}
    (writes : CopRegister.writtenBy? word = some register) :
    (core.executeWord word).value.fault = none := by
  unfold CopRegister.writtenBy? at writes
  split at writes
  · next instruction decoded =>
    rw [executeWord_of_decode core decoded]
    cases instruction with
    | moveToCop source cop cell =>
      simp only [execute, writeCop]
      cases resolved : CopRegister.resolve cop cell with
      | error invalid =>
        rw [Instruction.movesTo?, resolved] at writes
        cases writes
      | ok found => rfl
    | _ => cases writes
  · cases writes

theorem frame_of_completes (core : Core) {word : UInt32}
    (completes : (core.executeWord word).value.fault = none) :
    (∃ register value, CopRegister.writtenBy? word = some register ∧
      (core.executeWord word).value.core = core.setCell register value) ∨
    (core.executeWord word).value.core =
      { core with
        registers := (core.executeWord word).value.core.registers
        pipeline := (core.executeWord word).value.core.pipeline
        host := (core.executeWord word).value.core.host
        halted := (core.executeWord word).value.core.halted
        bus := (core.executeWord word).value.core.bus } := by
  cases decoded : Instruction.decode word with
  | error error =>
    rw [executeWord_of_undecodable core decoded] at completes
    cases completes
  | ok instruction =>
    rw [executeWord_of_decode core decoded] at completes ⊢
    have moves : CopRegister.writtenBy? word = instruction.movesTo? := by
      rw [CopRegister.writtenBy?, decoded]
    rw [moves]
    exact (execute_effect core instruction).frame completes

theorem cell_of_completes (core : Core) (register : CopRegister) {word : UInt32}
    (completes : (core.executeWord word).value.fault = none)
    (plain : ∀ slot field, register ≠ .mapWord slot field) :
    (core.executeWord word).value.core.cell register = core.cell register ∨
      CopRegister.writtenBy? word = some register := by
  rcases core.frame_of_completes completes with ⟨written, value, writes, same⟩ | same
  · by_cases found : written = register
    · right
      rw [writes, found]
    · left
      rw [same]
      exact core.cell_setCell_of_ne value found plain
  · left
    rw [same]
    cases register with
    | mapWord slot field => rfl
    | _ => rfl

/-- Only exceptions change the privilege. -/
theorem privilege_of_completes (core : Core) {word : UInt32}
    (completes : (core.executeWord word).value.fault = none) :
    (core.executeWord word).value.core.privilege = core.privilege := by
  rcases core.frame_of_completes completes with ⟨register, value, writes, same⟩ | same
  · rw [same, setCell_eq]
  · rw [same]

theorem writtenBy_ne_of_fault (core : Core) {word : UInt32} {fault : Exception}
    (faults : (core.executeWord word).value.fault = some fault) (register : CopRegister) :
    CopRegister.writtenBy? word ≠ some register := by
  intro writes
  have completes := core.fault_of_writtenBy writes
  rw [completes] at faults
  cases faults

end Core

end RiscBoard
