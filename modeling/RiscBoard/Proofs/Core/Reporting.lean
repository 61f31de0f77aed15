import RiscBoard.Proofs.Core.Atomicity
import RiscBoard.Proofs.Core.Environment
import RiscBoard.Proofs.Core.Outcome

/-!
What a core asks its host and what the host shows. A cycle makes at most one call, and the bytes
that the host writes then are all that the cycle writes. The core does not see them, so that a run
reaches the same states whatever the host shows.
-/

namespace RiscBoard

def Host.reporting (host : Host) (report : List HookCall → List Event) : Host :=
  { host with report := report }

def Instruction.request? (registers : RegisterFile) : Instruction → Option HookCall
  | .syscall immediate => some ⟨.syscall, immediate, registers⟩
  | .debug immediate => some ⟨.debug, immediate, registers⟩
  | _ => none

def Core.reporting (core : Core) (report : List HookCall → List Event) : Core :=
  { core with host := core.host.map (·.reporting report) }

def Execution.reporting (execution : Execution) (report : List HookCall → List Event) : Execution :=
  ⟨execution.core.reporting report, execution.fault⟩

namespace Core

def request? (core : Core) : Option HookCall :=
  core.executedWord?.bind fun word =>
    (Instruction.decode word).toOption.bind (·.request? core.fetch.value.registers)

section Exchange

variable (core : Core) (report : List HookCall → List Event)

theorem raise_reporting (exception : Exception) :
    ((core.reporting report).raise exception).value =
      (core.raise exception).value.reporting report := by
  rw [value_raise, value_raise]
  rfl

theorem settled_reporting (execution : Execution) :
    (execution.reporting report).settled = execution.settled.reporting report := by
  obtain ⟨core, fault⟩ := execution
  cases fault with
  | none => rfl
  | some fault => exact core.raise_reporting report fault

theorem executeLoad_reporting (size : AccessSize) (dest : Register) (address : Address) :
    ((core.reporting report).executeLoad size dest address).value =
      (core.executeLoad size dest address).value.reporting report := by
  unfold executeLoad
  rw [show (core.reporting report).mmu = core.mmu from rfl,
    show (core.reporting report).effectiveAddress address = core.effectiveAddress address from rfl]
  cases core.mmu.translate (core.effectiveAddress address) size .read with
  | error fault => rfl
  | ok physical =>
    simp only [Traced.value_bind, deliver, value_writeRegister]
    rfl

theorem executeStore_reporting (size : AccessSize) (source : Register) (address : Address) :
    ((core.reporting report).executeStore size source address).value =
      (core.executeStore size source address).value.reporting report := by
  unfold executeStore
  rw [show (core.reporting report).mmu = core.mmu from rfl,
    show (core.reporting report).effectiveAddress address = core.effectiveAddress address from rfl]
  cases core.mmu.translate (core.effectiveAddress address) size .write with
  | error fault => rfl
  | ok physical => rfl

theorem answered_reporting (host : Host) (request : HookCall) (exception : Exception) :
    (core.reporting report).answered (host.reporting report) request exception =
      (core.answered host request exception).reporting report := by
  have decided : (host.reporting report).decides request = host.decides request := rfl
  unfold answered
  rw [decided]
  cases host.decides request with
  | raise => rfl
  | resume => rfl
  | halt => rfl

theorem executeHook_reporting (kind : HookKind) (immediate : UInt32) (exception : Exception) :
    ((core.reporting report).executeHook kind immediate exception).value =
      (core.executeHook kind immediate exception).value.reporting report := by
  have exchanged : (core.reporting report).host = core.host.map (·.reporting report) := rfl
  rw [value_executeHook, value_executeHook, exchanged]
  cases core.host with
  | none => rfl
  | some host => exact core.answered_reporting report host _ exception

theorem execute_reporting (instruction : Instruction) :
    ((core.reporting report).execute instruction).value =
      (core.execute instruction).value.reporting report := by
  cases internal : instruction.usesEnvironment with
  | false =>
    obtain ⟨sameHost, sameBus⟩ := core.environment_execute internal
    calc ((core.reporting report).execute instruction).value
        = (core.execute instruction).value.within (core.host.map (·.reporting report)) core.bus :=
          core.execute_within _ _ internal
      _ = (core.execute instruction).value.reporting report := by
          rw [Execution.within, within, ← sameHost, ← sameBus]
          rfl
  | true =>
    cases instruction with
    | syscall immediate => exact core.executeHook_reporting report _ _ _
    | debug immediate => exact core.executeHook_reporting report _ _ _
    | load size dest address => exact core.executeLoad_reporting report size dest address
    | store size source address => exact core.executeStore_reporting report size source address
    | _ => cases internal

theorem executeWord_reporting (word : UInt32) :
    ((core.reporting report).executeWord word).value =
      (core.executeWord word).value.reporting report := by
  cases decoded : Instruction.decode word with
  | error error =>
    rw [executeWord_of_undecodable _ decoded, executeWord_of_undecodable _ decoded]
    rfl
  | ok instruction =>
    rw [executeWord_of_decode _ decoded, executeWord_of_decode _ decoded]
    exact core.execute_reporting report instruction

theorem fetch_reporting :
    (core.reporting report).fetch.value = core.fetch.value.reporting report := by
  cases translated : core.mmu.translate core.pc .exec .execute with
  | error fault =>
    have translatedToo : (core.reporting report).mmu.translate (core.reporting report).pc
        .exec .execute = .error fault := translated
    rw [value_fetch_of_fault translated, value_fetch_of_fault translatedToo]
    exact raise_reporting { core with pipeline := core.pipeline.shiftIn 0 } report fault
  | ok physical =>
    have translatedToo : (core.reporting report).mmu.translate (core.reporting report).pc
        .exec .execute = .ok physical := translated
    rw [value_fetch_of_ok translated, value_fetch_of_ok translatedToo]
    rfl

/-- A cycle does the same whatever the host shows. -/
theorem step_reporting :
    (core.reporting report).step.value = core.step.value.reporting report := by
  cases halted : core.halted with
  | true =>
    have haltedToo : (core.reporting report).halted = true := halted
    rw [step_of_halted halted, step_of_halted haltedToo]
  | false =>
    have runningToo : (core.reporting report).halted = false := halted
    rw [step_of_running halted, step_of_running runningToo, execution, execution, executing,
      executing, fetch_reporting]
    change (((core.fetch.value.reporting report).executeWord
      core.fetch.value.pipeline.executing).value.settled).retire = _
    rw [executeWord_reporting, settled_reporting]
    rfl

theorem after_reporting (count : Nat) :
    (core.reporting report).after count = (core.after count).reporting report := by
  induction count with
  | zero => rfl
  | succ count ih => rw [after_succ_last, after_succ_last, ih, step_reporting]

end Exchange

def Quiet {α : Type} (traced : Traced α) : Prop := Event.outputBytes traced.events = []

section Quiet

variable {α β : Type}

theorem outputBytes_append (first second : List Event) :
    Event.outputBytes (first ++ second) = Event.outputBytes first ++ Event.outputBytes second :=
  List.flatMap_append

theorem outputBytes_records (records : List LogRecord) :
    Event.outputBytes (records.map .log) = [] := by
  induction records with
  | nil => rfl
  | cons record rest ih => exact ih

theorem outputBytes_bind (first : Traced α) (next : α → Traced β) :
    Event.outputBytes (first >>= next).events =
      Event.outputBytes first.events ++ Event.outputBytes (next first.value).events := by
  rw [Traced.events_bind, outputBytes_append]

theorem Quiet.bind {first : Traced α} {next : α → Traced β} (before : Quiet first)
    (later : Quiet (next first.value)) : Quiet (first >>= next) := by
  rw [Quiet, outputBytes_bind, before, later]
  rfl

theorem quiet_flushOnTransfer (core : Core) : Quiet core.flushOnTransfer := by
  obtain ⟨records, shown⟩ := core.exists_records_flushOnTransfer
  rw [Quiet, shown, outputBytes_records]

theorem quiet_deliver (core : Core) (dest : Register) (value : UInt32) :
    Quiet (core.deliver dest value) := by
  obtain ⟨records, shown⟩ := core.exists_records_deliver dest value
  rw [Quiet, shown, outputBytes_records]

theorem quiet_setPrivilege (core : Core) (level : PrivilegeLevel) :
    Quiet (core.setPrivilege level) := by
  unfold setPrivilege
  split
  · rfl
  · rfl

theorem quiet_raise (core : Core) (exception : Exception) : Quiet (core.raise exception) := by
  apply Quiet.bind
  · rfl
  · apply Quiet.bind
    · exact quiet_setPrivilege _ _
    · exact quiet_flushOnTransfer _

theorem quiet_read (bus : Bus) (address : UInt32) (size : AccessSize) :
    Quiet (bus.read address size) := by
  unfold Bus.read Bus.readPort Bus.readMemory
  split
  · split
    · rfl
    · rfl
  · split
    · rfl
    · rfl

theorem outputBytes_writeEvents (device : MemoryDevice) (offset value : UInt32) :
    Event.outputBytes (device.writeEvents offset value) = [] := by
  cases device with
  | _ => rfl

theorem quiet_write (bus : Bus) (address value : UInt32) (size : AccessSize) :
    Quiet (bus.write address value size) := by
  unfold Bus.write Bus.writePort Bus.writeMemory
  split
  · split
    · rfl
    · rfl
  · split
    · rfl
    · exact outputBytes_writeEvents _ _ _

theorem quiet_executeAlu (core : Core) (op : AluOp) (dest : Register) (left right : UInt32) :
    Quiet (core.executeAlu op dest left right) := by
  unfold executeAlu
  split
  · rfl
  · exact quiet_deliver _ _ _

theorem quiet_executeBranch (core : Core) (condition : Condition) (link : Bool)
    (left right : Register) (target : UInt32 → UInt32) :
    Quiet (core.executeBranch condition link left right target) := by
  unfold executeBranch
  split
  · exact (quiet_flushOnTransfer _).bind rfl
  · rfl

theorem quiet_executeLoad (core : Core) (size : AccessSize) (dest : Register) (address : Address) :
    Quiet (core.executeLoad size dest address) := by
  unfold executeLoad
  split
  · rfl
  · exact Quiet.bind ((quiet_read _ _ _).bind rfl) (quiet_deliver _ _ _)

theorem quiet_executeStore (core : Core) (size : AccessSize) (source : Register)
    (address : Address) : Quiet (core.executeStore size source address) := by
  unfold executeStore
  split
  · rfl
  · exact Quiet.bind ((quiet_write _ _ _ _).bind rfl) rfl

theorem quiet_fetch (core : Core) : Quiet core.fetch := by
  unfold fetch
  split
  · exact quiet_raise _ _
  · exact Quiet.bind ((quiet_read _ _ _).bind rfl) rfl

end Quiet

def hostOutput (core : Core) (request? : Option HookCall) : List UInt8 :=
  Event.outputBytes (core.hostEvents request?)

theorem output_executeHook (core : Core) (kind : HookKind) (immediate : UInt32)
    (exception : Exception) :
    Event.outputBytes (core.executeHook kind immediate exception).events =
      core.hostOutput (some ⟨kind, immediate, core.registers⟩) := by
  unfold executeHook hostOutput hostEvents
  cases core.host with
  | none => rfl
  | some host =>
    simp only [outputBytes_bind]
    cases (host.call ⟨kind, immediate, core.registers⟩).value.1 with
    | raise => exact List.append_nil _
    | resume => exact List.append_nil _
    | halt => exact List.append_nil _

theorem output_execute (core : Core) (instruction : Instruction) :
    Event.outputBytes (core.execute instruction).events =
      core.hostOutput (instruction.request? core.registers) := by
  cases instruction with
  | aluRegister op dest left right => exact quiet_executeAlu core op dest _ _
  | aluImmediate op dest immediate => exact quiet_executeAlu core op dest _ _
  | branch condition link left right distance =>
    exact quiet_executeBranch core condition link left right _
  | branchRegister condition link relative left right target =>
    exact quiet_executeBranch core condition link left right _
  | moveToCop source cop cell =>
    simp only [execute]
    split
    · rfl
    · rfl
  | moveFromCop dest cop cell =>
    simp only [execute]
    split
    · rfl
    · exact quiet_deliver core dest _
  | syscall immediate => exact core.output_executeHook _ _ _
  | trapLevel level => rfl
  | debug immediate => exact core.output_executeHook _ _ _
  | softwareException immediate => rfl
  | load size dest address => exact quiet_executeLoad core size dest address
  | store size source address => exact quiet_executeStore core size source address
  | loadAddress dest address => exact quiet_deliver core dest _
  | loadImmediate dest immediate shift => exact quiet_deliver core dest _
  | setIf condition dest source immediate => exact quiet_deliver core dest _
  | coprocessor word => rfl

theorem output_executeWord (core : Core) (word : UInt32) :
    Event.outputBytes (core.executeWord word).events =
      core.hostOutput
        ((Instruction.decode word).toOption.bind (·.request? core.registers)) := by
  unfold executeWord
  cases Instruction.decode word with
  | error error => rfl
  | ok instruction => exact core.output_execute instruction

theorem output_executeOldest (core : Core) :
    Event.outputBytes core.executeOldest.events =
      Event.outputBytes (core.executeWord core.pipeline.executing).events := by
  unfold executeOldest
  rw [outputBytes_bind]
  cases (core.executeWord core.pipeline.executing).value.fault with
  | none => exact List.append_nil _
  | some fault =>
    have taken := quiet_raise (core.executeWord core.pipeline.executing).value.core fault
    exact (congrArg (_ ++ ·) taken).trans (List.append_nil _)

@[simp] theorem host_fetch (core : Core) : core.fetch.value.host = core.host := by
  cases translated : core.mmu.translate core.pc .exec .execute with
  | error fault => rw [value_fetch_of_fault translated, value_raise]
  | ok physical => rw [value_fetch_of_ok translated]

theorem hostOutput_fetch (core : Core) (request? : Option HookCall) :
    core.fetch.value.hostOutput request? = core.hostOutput request? := by
  unfold hostOutput hostEvents
  rw [host_fetch]

theorem output_step (core : Core) :
    Event.outputBytes core.step.events = core.hostOutput core.request? := by
  unfold step request? executedWord?
  cases core.halted with
  | true => rfl
  | false =>
    have fetched : Event.outputBytes core.fetch.events = [] := quiet_fetch core
    have executed := output_executeWord core.fetch.value core.executing
    simp only [Bool.false_eq_true, ↓reduceIte, outputBytes_bind, fetched, output_executeOldest]
    rw [List.nil_append, ← hostOutput_fetch]
    exact (List.append_nil _).trans executed

def hostAfter (core : Core) : Option HookCall → Option Host
  | none => core.host
  | some request => core.host.map (·.asked request)

theorem host_executeHook (core : Core) (kind : HookKind) (immediate : UInt32)
    (exception : Exception) :
    (core.executeHook kind immediate exception).value.core.host =
      core.hostAfter (some ⟨kind, immediate, core.registers⟩) := by
  rw [value_executeHook, hostAfter]
  cases present : core.host with
  | none => exact present
  | some host =>
    simp only [answered]
    cases host.decides ⟨kind, immediate, core.registers⟩ with
    | raise => rfl
    | resume => rfl
    | halt => rfl

theorem host_execute (core : Core) (instruction : Instruction) :
    (core.execute instruction).value.core.host =
      core.hostAfter (instruction.request? core.registers) := by
  cases internal : instruction.usesEnvironment with
  | false =>
    have kept := (core.environment_execute internal).1
    cases instruction with
    | syscall immediate | debug immediate => cases internal
    | _ => exact kept
  | true =>
    cases instruction with
    | syscall immediate => exact core.host_executeHook _ _ _
    | debug immediate => exact core.host_executeHook _ _ _
    | load size dest address =>
      simp only [execute, executeLoad]
      split
      · rfl
      · simp only [Traced.value_bind, deliver, value_writeRegister]
        rfl
    | store size source address =>
      simp only [execute, executeStore]
      split
      · rfl
      · rfl
    | _ => cases internal

theorem host_executeWord (core : Core) (word : UInt32) :
    (core.executeWord word).value.core.host =
      core.hostAfter
        ((Instruction.decode word).toOption.bind (·.request? core.registers)) := by
  unfold executeWord
  cases Instruction.decode word with
  | error error => rfl
  | ok instruction => exact core.host_execute instruction

theorem host_settled (execution : Execution) : execution.settled.host = execution.core.host := by
  unfold Execution.settled
  split
  · rfl
  · rw [value_raise]

theorem host_step (core : Core) : core.step.value.host = core.hostAfter core.request? := by
  cases halted : core.halted with
  | true =>
    rw [step_of_halted halted, request?, executedWord?, halted]
    rfl
  | false =>
    have executed := host_executeWord core.fetch.value core.executing
    have asked : core.fetch.value.hostAfter core.request? = core.hostAfter core.request? := by
      unfold hostAfter
      rw [host_fetch]
    rw [step_of_running halted, ← asked, request?, executedWord?, halted]
    exact (host_settled _).trans executed

/-- What a run writes is what the host does when the words of the run ask it, one after another. -/
theorem output_steps (core : Core) (count : Nat) :
    Event.outputBytes (core.steps count).events =
      (List.range count).flatMap fun cycle =>
        (core.after cycle).hostOutput (core.after cycle).request? := by
  induction count with
  | zero => rfl
  | succ count ih =>
    have last := output_step (core.after count)
    rw [steps_succ_last, outputBytes_bind, ih, List.range_succ, List.flatMap_append,
      List.flatMap_singleton]
    exact congrArg (_ ++ ·) last

end Core

end RiscBoard
