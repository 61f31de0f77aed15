import RiscBoard.Proofs.Core.Atomicity
import RiscBoard.Proofs.Core.Flow

/-!
Cycles whose fetch faults. The exception of the fetch is taken first, and the oldest word in flight
is executed after it, in the same cycle. Under the flush policy that word is an empty slot and the
handler is entered. Without the policy it is a word that precedes the fetch in program order, and if
it transfers control it does so from the handler.
-/

namespace RiscBoard.Core

/-- The cycle enters the handler of its fetch fault: the next fetch is at the handler, the trap
registers tell of this fault, up to a word that writes them, and the privilege is one level up. -/
structure EntersHandler (core : Core) (fault : Exception) : Prop where
  atHandler : core.step.value.pc = core.trap.handler
  exceptionPc : core.step.value.trap.exceptionPc = core.pc ∨
    CopRegister.writtenBy? core.executing = some .exceptionPc
  cause : core.step.value.trap.cause = fault.code ∨
    CopRegister.writtenBy? core.executing = some .cause
  emptySlot : core.step.value.pipeline.newest = 0
  raisedOnce : core.step.value.privilege = core.privilege.raised

/-- The word executed after a fetch fault leaves no more than the fetch fault does, although it may
transfer control: it goes to the handler, or its own fault cannot be told from that of the fetch. -/
def TransferUnseen (core : Core) (fault : Exception) : Prop :=
  match core.execution.fault with
  | none => core.execution.core.pc = core.trap.handler
  | some second =>
    core.pc = core.trap.handler ∧ second.code = fault.code ∧ core.privilege.raised = .level0

section FetchFault

variable {core : Core} {fault : Exception}

theorem trap_fetch_of_fault
    (faults : core.mmu.translate core.pc .exec .execute = .error fault) :
    core.fetch.value.trap = { core.trap with cause := fault.code, exceptionPc := core.pc } := by
  rw [value_fetch_of_fault faults, value_raise]
  rfl

theorem privilege_fetch_of_fault
    (faults : core.mmu.translate core.pc .exec .execute = .error fault) :
    core.fetch.value.privilege = core.privilege.raised := by
  rw [value_fetch_of_fault faults, value_raise]

theorem pc_fetch_of_fault (faults : core.mmu.translate core.pc .exec .execute = .error fault) :
    core.fetch.value.pc = core.trap.handler := by
  rw [value_fetch_of_fault faults, value_raise]
  exact RegisterFile.pc_setPc _ _

/-- Under the flush policy nothing is left to transfer control. -/
theorem transfers_of_flushed (faults : core.mmu.translate core.pc .exec .execute = .error fault)
    (flushes : core.control.flushOnTransfer = true) : core.transfers = false := by
  have bubble : core.executing = 0 := by
    rw [executing_eq, flushesOnFault_of_fault faults, if_pos flushes]
  rw [transfers, bubble]
  exact transfersFlow_zero _

theorem entersHandler_of_completes (running : core.halted = false)
    (faults : core.mmu.translate core.pc .exec .execute = .error fault)
    (completes : core.execution.fault = none) :
    core.EntersHandler fault ↔ core.execution.core.pc = core.trap.handler := by
  have stepped : core.step.value = core.execution.core.retire := by
    rw [step_of_running running, Execution.settled, completes]
  have pcSame : core.step.value.pc = core.execution.core.pc := by
    rw [stepped]
    exact RegisterFile.pc_clearZero _
  constructor
  · intro enters
    rw [← pcSame]
    exact enters.atHandler
  · intro lands
    refine ⟨pcSame.trans lands, ?_, ?_, newest_step_of_fetchFault running faults, ?_⟩
    · have kept := core.fetch.value.cell_of_completes .exceptionPc completes (by simp)
      simp only [cell, trap_fetch_of_fault faults] at kept
      rw [stepped]
      exact kept
    · have kept := core.fetch.value.cell_of_completes .cause completes (by simp)
      simp only [cell, trap_fetch_of_fault faults] at kept
      rw [stepped]
      exact kept
    · have kept := core.fetch.value.privilege_of_completes completes
      rw [privilege_fetch_of_fault faults] at kept
      rw [stepped]
      exact kept

/-- A second exception in the cycle is taken at the handler and raises the privilege once more. -/
theorem step_of_second_fault {second : Exception} (running : core.halted = false)
    (faults : core.mmu.translate core.pc .exec .execute = .error fault)
    (ends : core.execution.fault = some second) :
    core.step.value.pc = core.trap.handler ∧
      core.step.value.trap.exceptionPc = core.trap.handler ∧
      core.step.value.trap.cause = second.code ∧
      core.step.value.privilege = core.privilege.raised.raised := by
  have refused := executeWord_refuses core.fetch.value core.executing ends
  obtain ⟨host, _, same⟩ := refused.value_eq
  have stepped : core.step.value =
      ({ core.fetch.value with host := host }.raise second).value.retire := by
    rw [step_of_running running, execution, same, Execution.settled_faulted]
  have handlerKept : core.fetch.value.trap.handler = core.trap.handler := by
    rw [trap_fetch_of_fault faults]
  rw [stepped, value_raise]
  refine ⟨?_, pc_fetch_of_fault faults, rfl, ?_⟩
  · rw [← handlerKept]
    exact (RegisterFile.pc_clearZero _).trans (RegisterFile.pc_setPc _ _)
  · rw [← privilege_fetch_of_fault faults]
    rfl

theorem entersHandler_of_second_fault {second : Exception} (running : core.halted = false)
    (faults : core.mmu.translate core.pc .exec .execute = .error fault)
    (ends : core.execution.fault = some second) :
    core.EntersHandler fault ↔
      core.pc = core.trap.handler ∧ second.code = fault.code ∧
        core.privilege.raised = .level0 := by
  obtain ⟨atHandler, exceptionPc, cause, privilege⟩ := step_of_second_fault running faults ends
  have noWrite := core.fetch.value.writtenBy_ne_of_fault ends
  constructor
  · intro enters
    -- No word that faults writes a trap register, so that both have to hold what is promised.
    refine ⟨?_, ?_, ?_⟩
    · have recorded := enters.exceptionPc.resolve_right (noWrite .exceptionPc)
      rw [← recorded, exceptionPc]
    · have recorded := enters.cause.resolve_right (noWrite .cause)
      rw [← cause, recorded]
    · have raised := enters.raisedOnce
      rw [privilege] at raised
      cases level : core.privilege with
      | level0 => rfl
      | level1 => rfl
      | level2 => rw [level] at raised; cases raised
      | level3 => rw [level] at raised; cases raised
  · rintro ⟨samePc, sameCode, top⟩
    refine ⟨atHandler, ?_, ?_, newest_step_of_fetchFault running faults, ?_⟩
    · rw [exceptionPc, samePc]
      exact .inl rfl
    · rw [cause, sameCode]
      exact .inl rfl
    · rw [privilege, top]
      rfl

/-- Where control is not transferred, the cycle goes on where the fetch fault left it. -/
theorem pc_execution_of_stays (faults : core.mmu.translate core.pc .exec .execute = .error fault)
    (stays : core.transfers = false) (completes : core.execution.fault = none) :
    core.execution.core.pc = core.trap.handler := by
  have kept := core.fetch.value.pc_settled core.executing stays
  rw [Execution.settled, show (core.fetch.value.executeWord core.executing).value.fault = none
    from completes] at kept
  rw [execution, kept, pc_fetch_of_fault faults]

/-- A cycle whose fetch faults enters the handler exactly if its executed word transfers no control
or leaves no more than the fetch fault. Under the flush policy no word can. -/
theorem fetch_fault_enters_handler (running : core.halted = false)
    (faults : core.mmu.translate core.pc .exec .execute = .error fault) :
    (core.control.flushOnTransfer = true → core.transfers = false) ∧
      (core.EntersHandler fault ↔ core.transfers = false ∨ core.TransferUnseen fault) := by
  constructor
  · exact transfers_of_flushed faults
  · unfold TransferUnseen
    cases ends : core.execution.fault with
    | none =>
      rw [entersHandler_of_completes running faults ends]
      constructor
      · exact .inr
      · rintro (stays | lands)
        · exact pc_execution_of_stays faults stays ends
        · exact lands
    | some second =>
      rw [entersHandler_of_second_fault running faults ends]
      have transferred : core.transfers = true := by
        rw [transfers, transfersFlow, show (core.fetch.value.executeWord core.executing).value.fault
          = some second from ends]
        rfl
      simp only [transferred, Bool.true_eq_false, false_or]

end FetchFault

def endOfCode (word : UInt32) : Core :=
  { create 8 .empty with
    pipeline := ⟨0, word, 0⟩
    trap := { TrapRegisters.reset with handler := 0x800 }
    mmu := { Mmu.cleared with control := ⟨1⟩ } }

theorem endOfCode_faults (word : UInt32) :
    (endOfCode word).mmu.translate (endOfCode word).pc .exec .execute = .error .noMapping := by
  have unmapped : (endOfCode 0).fetchFault? = some .noMapping := by decide +kernel
  exact ((endOfCode 0).fetchFault?_eq_some_iff .noMapping).1 unmapped

/-- The word that loads 7 into register 1 stays where it is. -/
theorem endOfCode_enters_handler : (endOfCode 0x884001c0).EntersHandler .noMapping := by
  have running : (endOfCode 0x884001c0).halted = false := rfl
  have stays : (endOfCode 0x884001c0).transfers = false := by decide +kernel
  obtain ⟨_, enters⟩ := fetch_fault_enters_handler running (endOfCode_faults _)
  exact enters.2 (.inl stays)

/-- A branch over 32 bytes that is executed after the fetch fault goes 32 bytes past the start of
the handler. -/
theorem branch_passes_handler :
    ¬ ∀ (core : Core) (fault : Exception), core.halted = false →
      core.mmu.translate core.pc .exec .execute = .error fault → core.EntersHandler fault := by
  intro promised
  have enters := promised (endOfCode 0x10000040) .noMapping rfl (endOfCode_faults _)
  have passes : (endOfCode 0x10000040).step.value.pc = 0x820 := by decide +kernel
  have start : (endOfCode 0x10000040).trap.handler = 0x800 := rfl
  have same := enters.atHandler
  rw [passes, start] at same
  exact absurd same (by decide)

end RiscBoard.Core
