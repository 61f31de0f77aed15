import RiscBoard.Proofs.Bus.Reading
import RiscBoard.Proofs.Core.Cycle

/-!
Faults of instructions are atomic. An execution that ends in a fault has left the core as it was, so
that a cycle whose word faults is a fetch followed by the exception and nothing else.
-/

namespace RiscBoard.Core

/-- An execution that ends in `fault` and has changed nothing. The host may have been asked, if it
wants the exception to be taken; what it shows then is its own, and all else is records of the log. -/
inductive Refuses (core : Core) (fault : Exception) : Traced Execution → Prop where
  | unasked (records : List LogRecord) :
      Refuses core fault ⟨core.faulted fault, records.map .log⟩
  | asked (records : List LogRecord) (host : Host) (request : HookCall)
      (present : core.host = some host) (decided : host.decides request = .raise)
      (seen : request.registers = core.registers) :
      Refuses core fault
        ⟨{ core with host := some (host.asked request) }.faulted fault,
          records.map .log ++ (host.call request).events⟩

theorem Refuses.logged {core : Core} {fault : Exception} {execution : Traced Execution}
    (refused : core.Refuses fault execution) (record : LogRecord) :
    core.Refuses fault (Traced.log record >>= fun _ => execution) := by
  cases refused with
  | unasked records => exact .unasked (record :: records)
  | asked records host request present decided seen =>
    exact .asked (record :: records) host request present decided seen

theorem executeAlu_refuses (core : Core) (op : AluOp) (dest : Register) (left right : UInt32)
    {fault : Exception} (ends : (core.executeAlu op dest left right).value.fault = some fault) :
    core.Refuses fault (core.executeAlu op dest left right) := by
  unfold executeAlu at ends ⊢
  split at ends
  · cases ends
    exact .unasked []
  · cases ends

theorem executeBranch_completes (core : Core) (condition : Condition) (link : Bool)
    (left right : Register) (target : UInt32 → UInt32) :
    (core.executeBranch condition link left right target).value.fault = none := by
  unfold executeBranch
  split
  · rfl
  · rfl

theorem executeLoad_refuses (core : Core) (size : AccessSize) (dest : Register) (address : Address)
    {fault : Exception} (ends : (core.executeLoad size dest address).value.fault = some fault) :
    core.Refuses fault (core.executeLoad size dest address) := by
  unfold executeLoad at ends ⊢
  split at ends
  · cases ends
    exact .unasked []
  · cases ends

theorem executeStore_refuses (core : Core) (size : AccessSize) (source : Register)
    (address : Address) {fault : Exception}
    (ends : (core.executeStore size source address).value.fault = some fault) :
    core.Refuses fault (core.executeStore size source address) := by
  unfold executeStore at ends ⊢
  split at ends
  · cases ends
    exact .unasked []
  · cases ends

theorem executeHook_raised {core : Core} {host : Host} (present : core.host = some host)
    (kind : HookKind) (immediate : UInt32) (exception : Exception)
    (decided : host.decides ⟨kind, immediate, core.registers⟩ = .raise) :
    core.executeHook kind immediate exception =
      ⟨{ core with host := some (host.asked ⟨kind, immediate, core.registers⟩) }.faulted exception,
        (host.call ⟨kind, immediate, core.registers⟩).events⟩ := by
  have action : (host.call ⟨kind, immediate, core.registers⟩).value.1 = .raise := decided
  simp only [executeHook, present]
  apply Traced.ext
  · simp only [Traced.value_bind, action]
    rfl
  · simp only [Traced.events_bind, action, Traced.events_pure, List.append_nil]

theorem executeHook_refuses (core : Core) (kind : HookKind) (immediate : UInt32)
    (exception : Exception) {fault : Exception}
    (ends : (core.executeHook kind immediate exception).value.fault = some fault) :
    core.Refuses fault (core.executeHook kind immediate exception) := by
  cases present : core.host with
  | none =>
    simp only [executeHook, present] at ends ⊢
    cases ends
    exact .unasked []
  | some host =>
    cases decided : host.decides ⟨kind, immediate, core.registers⟩ with
    | raise =>
      rw [executeHook_raised present kind immediate exception decided] at ends ⊢
      cases ends
      exact .asked [] host _ present decided rfl
    | resume =>
      have action : (host.call ⟨kind, immediate, core.registers⟩).value.1 = .resume := decided
      simp only [executeHook, present, Traced.value_bind, action] at ends
      cases ends
    | halt =>
      have action : (host.call ⟨kind, immediate, core.registers⟩).value.1 = .halt := decided
      simp only [executeHook, present, Traced.value_bind, action] at ends
      cases ends

theorem execute_refuses (core : Core) (instruction : Instruction) {fault : Exception}
    (ends : (core.execute instruction).value.fault = some fault) :
    core.Refuses fault (core.execute instruction) := by
  cases instruction with
  | aluRegister op dest left right => exact executeAlu_refuses core op dest _ _ ends
  | aluImmediate op dest immediate => exact executeAlu_refuses core op dest _ _ ends
  | branch condition link left right distance =>
    rw [execute, executeBranch_completes] at ends
    cases ends
  | branchRegister condition link relative left right target =>
    rw [execute, executeBranch_completes] at ends
    cases ends
  | moveToCop source cop cell =>
    simp only [execute] at ends ⊢
    split at ends
    · cases ends
      exact .unasked []
    · cases ends
  | moveFromCop dest cop cell =>
    simp only [execute] at ends ⊢
    split at ends
    · cases ends
      exact .unasked []
    · cases ends
  | syscall immediate => exact executeHook_refuses core _ _ _ ends
  | trapLevel level =>
    cases ends
    exact (Refuses.unasked []).logged (.reservedTrap level)
  | debug immediate => exact executeHook_refuses core _ _ _ ends
  | softwareException immediate =>
    cases ends
    exact .unasked []
  | load size dest address => exact executeLoad_refuses core size dest address ends
  | store size source address => exact executeStore_refuses core size source address ends
  | loadAddress dest address => cases ends
  | loadImmediate dest immediate shift => cases ends
  | setIf condition dest source immediate => cases ends
  | coprocessor word => cases ends

theorem executeWord_refuses (core : Core) (word : UInt32) {fault : Exception}
    (ends : (core.executeWord word).value.fault = some fault) :
    core.Refuses fault (core.executeWord word) := by
  unfold executeWord at ends ⊢
  split at ends
  · next error _ =>
    cases ends
    exact (Refuses.unasked []).logged (.undecodable word error)
  · next instruction _ =>
    exact (execute_refuses core instruction ends).logged (.executing (core.pc - 12) instruction)

/-- The host of a core after a refusal: it is as before, or was asked once about the registers as
they are and wants the exception to be taken. -/
def HostAfterRefusal (core : Core) (host : Option Host) : Prop :=
  host = core.host ∨
    ∃ before request, core.host = some before ∧ before.decides request = .raise ∧
      request.registers = core.registers ∧ host = some (before.asked request)

theorem Refuses.value_eq {core : Core} {fault : Exception} {execution : Traced Execution}
    (refused : core.Refuses fault execution) :
    ∃ host, core.HostAfterRefusal host ∧
      execution.value = { core with host := host }.faulted fault := by
  cases refused with
  | unasked records => exact ⟨core.host, .inl rfl, rfl⟩
  | asked records host request present decided seen =>
    exact ⟨some (host.asked request), .inr ⟨host, request, present, decided, seen, rfl⟩, rfl⟩

/-- The level with the number below that of `level`, or level 0. -/
def levelAbove (level : PrivilegeLevel) : PrivilegeLevel :=
  .ofIndex ⟨level.index.val - 1, by omega⟩

theorem levelAbove_eq_raised (level : PrivilegeLevel) : levelAbove level = level.raised := by
  cases level with
  | level0 | level1 | level2 | level3 => rfl

def afterFault (core : Core) (physical : UInt32) (fault : Exception) (host : Option Host) : Core :=
  let (word, bus) := (core.bus.read physical .exec).value
  { core with
    registers := (core.registers.set .programCounter core.trap.handler).set .zero 0
    pipeline := if core.control.flushOnTransfer then .empty else core.pipeline.shiftIn word
    privilege := levelAbove core.privilege
    trap := { core.trap with cause := fault.code, exceptionPc := core.pc + 4 }
    mmu := core.mmuAt (levelAbove core.privilege)
    host := host
    cycles := core.cycles + 1
    bus := bus }

theorem step_of_refusal {core : Core} {physical : UInt32} {fault : Exception}
    {host : Option Host} (running : core.halted = false)
    (translated : core.mmu.translate core.pc .exec .execute = .ok physical)
    (refused : core.execution = { core.fetch.value with host := host }.faulted fault) :
    core.step.value = core.afterFault physical fault host := by
  rw [step_of_running running, refused]
  -- The exception replaces the program counter that the fetch has moved, but records it first.
  simp only [Execution.settled, faulted, value_raise, value_fetch_of_ok translated,
    RegisterFile.setPc_setPc]
  simp only [retire, afterFault, levelAbove_eq_raised, pc, RegisterFile.pc_setPc]
  rfl

/-- An execution that faults changes nothing, and a cycle that executes it is its fetch and one
exception. No memory differs after such a cycle. -/
theorem faulting_execution_atomic (core : Core) :
    (∀ word fault, (core.executeWord word).value.fault = some fault →
      core.Refuses fault (core.executeWord word)) ∧
    ∀ physical fault, core.halted = false →
      core.mmu.translate core.pc .exec .execute = .ok physical →
      core.execution.fault = some fault →
      ∃ host, core.fetch.value.HostAfterRefusal host ∧
        core.step.value = core.afterFault physical fault host ∧
        core.bus.SameMemory core.step.value.bus := by
  constructor
  · intro word fault ends
    exact executeWord_refuses core word ends
  · intro physical fault running translated ends
    have refused := executeWord_refuses core.fetch.value core.executing ends
    obtain ⟨host, asked, same⟩ := refused.value_eq
    have stepped := step_of_refusal running translated same
    refine ⟨host, asked, stepped, ?_⟩
    rw [stepped]
    exact core.bus.sameMemory_read physical .exec

def dividing : Core := { create 0 .empty with pipeline := ⟨0, 0x00420010, 0⟩ }

theorem dividing_atomic :
    dividing.Refuses .arithmetic (dividing.executeWord 0x00420010) ∧
      ∃ host, dividing.fetch.value.HostAfterRefusal host ∧
        dividing.step.value = dividing.afterFault 0 .arithmetic host ∧
        dividing.bus.SameMemory dividing.step.value.bus :=
  ⟨(faulting_execution_atomic dividing).1 _ _ (by decide +kernel),
    (faulting_execution_atomic dividing).2 0 .arithmetic rfl rfl
      (by decide +kernel)⟩

end RiscBoard.Core
