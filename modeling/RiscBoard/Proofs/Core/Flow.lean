import RiscBoard.Proofs.Core.Cycle

/-!
What one cycle does to the words in flight and to the program counter. The flush policy empties the
pipeline in two places of a cycle, when its fetch faults and when its executed word transfers
control; nothing else drops a word.
-/

namespace RiscBoard

namespace Core

def flushesOnFault (core : Core) : Bool :=
  core.control.flushOnTransfer && core.fetchFault?.isSome

def flushesOnTransfer (core : Core) : Bool := core.control.flushOnTransfer && core.transfers

namespace Effect

variable {core : Core} {instruction : Instruction} {execution : Execution}

theorem pipeline_settled (effect : Effect core instruction execution) :
    execution.settled.pipeline =
      if execution.fault.isSome || core.redirects instruction then core.pipelineAfterTransfer
      else core.pipeline := by
  cases effect with
  | refused fault => rw [Execution.settled_faulted, value_raise]; rfl
  | raised host request fault present decided seen =>
    rw [Execution.settled_faulted, value_raise]
    rfl
  | resumed host request present decided seen stays => rw [stays]; rfl
  | stopped host request present decided seen stays => rw [stays]; rfl
  | idle stays => rw [stays]; rfl
  | branched linked target saved taken =>
    rw [Execution.settled_completed, redirects, taken]
    rfl
  | movedToCop source cop cell register is resolved =>
    subst is
    rw [Execution.settled_completed, setCell_eq]
    rfl
  | stored size source address physical is translated => subst is; rfl
  | loaded size dest address physical is translated =>
    subst is
    have target : (Instruction.load size dest address).destination? = some dest := rfl
    have same := redirects_of_destination core target
    simp only [Execution.settled_completed, value_writeRegister, same]
    simp [completed, pipelineAfterTransfer]
  | delivered dest value target =>
    simp only [Execution.settled_completed, value_writeRegister,
      redirects_of_destination core target]
    simp [completed]

theorem pc_settled (effect : Effect core instruction execution)
    (completes : execution.fault = none) (stays : core.redirects instruction = false) :
    execution.settled.pc = core.pc := by
  cases effect with
  | refused fault => cases completes
  | raised host request fault present decided seen => cases completes
  | resumed host request present decided seen _ => rfl
  | stopped host request present decided seen _ => rfl
  | idle _ => rfl
  | branched linked target saved taken => simp [redirects, taken] at stays
  | movedToCop source cop cell register is resolved =>
    rw [Execution.settled_completed, setCell_eq]
    rfl
  | stored size source address physical is translated => rfl
  | loaded size dest address physical is translated =>
    subst is
    have target : (Instruction.load size dest address).destination? = some dest := rfl
    have other : dest ≠ .programCounter := by
      rw [redirects_of_destination core target] at stays
      exact of_decide_eq_false stays
    rw [Execution.settled_completed, value_writeRegister]
    exact RegisterFile.get_set_of_ne _ _ other
  | delivered dest value target =>
    have other : dest ≠ .programCounter := by
      rw [redirects_of_destination core target] at stays
      exact of_decide_eq_false stays
    rw [Execution.settled_completed, value_writeRegister]
    exact RegisterFile.get_set_of_ne _ _ other

end Effect

theorem pipeline_settled (core : Core) (word : UInt32) :
    (core.executeWord word).value.settled.pipeline =
      if core.transfersFlow word then core.pipelineAfterTransfer else core.pipeline := by
  cases decoded : Instruction.decode word with
  | error error =>
    simp only [transfersFlow, executeWord_of_undecodable core decoded, Execution.settled_faulted,
      value_raise]
    rfl
  | ok instruction =>
    simp only [transfersFlow, executeWord_of_decode core decoded, decoded]
    exact (execute_effect core instruction).pipeline_settled

theorem pc_settled (core : Core) (word : UInt32) (stays : core.transfersFlow word = false) :
    (core.executeWord word).value.settled.pc = core.pc := by
  cases decoded : Instruction.decode word with
  | error error =>
    rw [transfersFlow, executeWord_of_undecodable core decoded] at stays
    cases stays
  | ok instruction =>
    simp only [transfersFlow, executeWord_of_decode core decoded, decoded, Bool.or_eq_false_iff,
      Option.isSome_eq_false_iff, Option.isNone_iff_eq_none] at stays ⊢
    exact (execute_effect core instruction).pc_settled stays.1 stays.2

/-- An empty slot holds the word that adds register 0 to itself. -/
theorem decode_zero : Instruction.decode 0 = .ok (.aluRegister .add 0 0 0) := rfl

theorem executeWord_zero (core : Core) :
    (core.executeWord 0).value =
      { core with
        registers := core.registers.set 0 (core.registers.get 0 + core.registers.get 0)
      }.completed := by
  rw [executeWord_of_decode core decode_zero]
  rfl

@[simp] theorem transfersFlow_zero (core : Core) : core.transfersFlow 0 = false := by
  rw [transfersFlow, executeWord_zero, decode_zero]
  rfl

@[simp] theorem control_fetch (core : Core) : core.fetch.value.control = core.control := by
  cases translated : core.mmu.translate core.pc .exec .execute with
  | error fault => rw [value_fetch_of_fault translated, value_raise]
  | ok physical => rw [value_fetch_of_ok translated]

theorem pipeline_fetch_of_fault {core : Core} {fault : Exception}
    (faults : core.mmu.translate core.pc .exec .execute = .error fault) :
    core.fetch.value.pipeline =
      if core.control.flushOnTransfer then .empty else core.pipeline.shiftIn 0 := by
  rw [value_fetch_of_fault faults, value_raise]
  rfl

theorem pipeline_fetch_of_ok {core : Core} {physical : UInt32}
    (translated : core.mmu.translate core.pc .exec .execute = .ok physical) :
    core.fetch.value.pipeline =
      core.pipeline.shiftIn (core.bus.read physical .exec).value.1 := by
  rw [value_fetch_of_ok translated]

theorem flushesOnFault_of_fault {core : Core} {fault : Exception}
    (faults : core.mmu.translate core.pc .exec .execute = .error fault) :
    core.flushesOnFault = core.control.flushOnTransfer := by
  rw [flushesOnFault, (core.fetchFault?_eq_some_iff fault).2 faults]
  exact Bool.and_true _

theorem flushesOnFault_of_ok {core : Core} {physical : UInt32}
    (translated : core.mmu.translate core.pc .exec .execute = .ok physical) :
    core.flushesOnFault = false := by
  rw [flushesOnFault, core.fetchFault?_eq_none_iff.2 ⟨physical, translated⟩]
  exact Bool.and_false _

theorem pipeline_fetch (core : Core) :
    ∃ word, core.fetch.value.pipeline =
      if core.flushesOnFault then .empty else core.pipeline.shiftIn word := by
  cases translated : core.mmu.translate core.pc .exec .execute with
  | error fault =>
    refine ⟨0, ?_⟩
    rw [flushesOnFault_of_fault translated]
    exact pipeline_fetch_of_fault translated
  | ok physical =>
    refine ⟨(core.bus.read physical .exec).value.1, ?_⟩
    rw [flushesOnFault_of_ok translated]
    exact pipeline_fetch_of_ok translated

theorem middle_fetch (core : Core) :
    core.fetch.value.pipeline.middle =
      if core.flushesOnFault then 0 else core.pipeline.newest := by
  obtain ⟨word, moved⟩ := core.pipeline_fetch
  rw [moved]
  split
  · rfl
  · rfl

theorem executing_eq (core : Core) :
    core.executing = if core.flushesOnFault then 0 else core.pipeline.middle := by
  obtain ⟨word, moved⟩ := core.pipeline_fetch
  rw [executing, moved]
  split
  · rfl
  · rfl

theorem pipeline_step {core : Core} (running : core.halted = false) :
    core.step.value.pipeline =
      if core.flushesOnTransfer then .empty else core.fetch.value.pipeline := by
  rw [step_of_running running]
  -- The executed word may change the flush policy, but a word that does so transfers no control, so
  -- that the policy from before the cycle decides.
  simp only [retire, execution, pipeline_settled, pipelineAfterTransfer, control_fetch,
    flushesOnTransfer, transfers, Bool.and_eq_true]
  cases core.control.flushOnTransfer with
  | true => simp
  | false => simp

theorem newest_step_of_fetchFault {core : Core} {fault : Exception}
    (running : core.halted = false)
    (faults : core.mmu.translate core.pc .exec .execute = .error fault) :
    core.step.value.pipeline.newest = 0 := by
  rw [pipeline_step running, pipeline_fetch_of_fault faults]
  split
  · rfl
  · split
    · rfl
    · rfl

theorem middle_step {core : Core} (running : core.halted = false) :
    core.step.value.pipeline.middle =
      if core.flushesOnFault || core.flushesOnTransfer then 0 else core.pipeline.newest := by
  rw [pipeline_step running]
  cases core.flushesOnTransfer with
  | true =>
    rw [Bool.or_true]
    rfl
  | false =>
    rw [Bool.or_false]
    exact core.middle_fetch

theorem pc_step_of_stays {core : Core} (running : core.halted = false)
    (stays : core.transfers = false) : core.step.value.pc = core.fetch.value.pc := by
  rw [step_of_running running]
  have kept := pc_settled core.fetch.value core.executing stays
  calc core.execution.settled.retire.pc
      = core.execution.settled.pc := RegisterFile.pc_clearZero _
    _ = core.fetch.value.pc := kept

end Core

end RiscBoard
