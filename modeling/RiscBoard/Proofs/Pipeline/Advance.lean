import RiscBoard.Proofs.Core.Atomicity
import RiscBoard.Proofs.Core.Outcome
import RiscBoard.Proofs.Pipeline.Survival

/-!
How the program counter moves. A cycle that fetches a word and transfers no control moves it on by
one word; the word executed in a cycle sees it three words ahead of a fetch two cycles earlier, and
what the word records or computes from it follows.
-/

namespace RiscBoard.Core

variable {core : Core} {word : UInt32}

theorem running_of_executedWord (executed : core.executedWord? = some word) :
    core.halted = false := by
  cases halted : core.halted with
  | false => rfl
  | true =>
    rw [executedWord?, halted] at executed
    cases executed

theorem running_of_step (running : core.step.value.halted = false) : core.halted = false := by
  cases halted : core.halted with
  | false => rfl
  | true =>
    rw [step_of_halted halted, halted] at running
    cases running

theorem fetchedWord?_of_fault {fault : Exception} (running : core.halted = false)
    (translated : core.mmu.translate core.pc .exec .execute = .error fault) :
    core.fetchedWord? = none := by
  rw [fetchedWord?, running, translated]
  rfl

theorem fetchedWord?_of_ok {physical : UInt32} (running : core.halted = false)
    (translated : core.mmu.translate core.pc .exec .execute = .ok physical) :
    core.fetchedWord? = some (core.bus.read physical .exec).value.1 := by
  rw [fetchedWord?, running, translated]
  rfl

theorem fetchedWord?_isSome (running : core.halted = false) :
    core.fetchedWord?.isSome = true ↔ core.fetchFault? = none := by
  rw [fetchedWord?, fetchFault?, running]
  simp only [Bool.false_eq_true, ↓reduceIte]
  split
  · simp
  · simp

theorem fetchFault?_of_fetchedWord (fetched : core.fetchedWord? = some word) :
    core.fetchFault? = none := by
  apply (fetchedWord?_isSome (running_of_fetchedWord fetched)).1
  rw [fetched]
  rfl

theorem pc_fetch_of_fetchedWord (fetched : core.fetchedWord? = some word) :
    core.fetch.value.pc = core.pc + 4 := by
  obtain ⟨physical, translated⟩ :=
    core.fetchFault?_eq_none_iff.1 (fetchFault?_of_fetchedWord fetched)
  rw [value_fetch_of_ok translated]
  exact RegisterFile.pc_setPc _ _

theorem pc_step_of_fetchedWord (fetched : core.fetchedWord? = some word)
    (stays : core.transfers = false) : core.step.value.pc = core.pc + 4 := by
  rw [pc_step_of_stays (running_of_fetchedWord fetched) stays, pc_fetch_of_fetchedWord fetched]

/-- Three fetches in a row without a transfer of control: the third leaves the program counter three
words ahead of the first. -/
theorem pc_third_fetch {second third : UInt32} (fetched : core.fetchedWord? = some word)
    (stays : core.transfers = false) (next : core.step.value.fetchedWord? = some second)
    (remains : core.step.value.transfers = false)
    (last : (core.after 2).fetchedWord? = some third) :
    (core.after 2).pc = core.pc + 8 ∧ (core.after 2).fetch.value.pc = core.pc + 12 := by
  have first := pc_step_of_fetchedWord fetched stays
  have second := pc_step_of_fetchedWord next remains
  have pair : (core.after 2).pc = core.pc + 8 := by
    rw [after_succ, after_succ, after_zero, second, first, UInt32.add_assoc]
    rfl
  refine ⟨pair, ?_⟩
  rw [pc_fetch_of_fetchedWord last, pair, UInt32.add_assoc]
  rfl

theorem step_of_branch {instruction : Instruction} (running : core.halted = false)
    (decoded : Instruction.decode core.executing = .ok instruction)
    (taken : core.fetch.value.takesBranch instruction = true) :
    ∃ target, instruction.target? core.fetch.value.registers = some target ∧
      core.step.value.pc = target ∧
      (instruction.links = true →
        core.step.value.registers.get .link = core.fetch.value.pc) := by
  obtain ⟨target, goes, settled⟩ := settled_of_takesBranch taken
  have stepped : core.step.value = (core.fetch.value.follow
      (.jump target (if instruction.links then some core.fetch.value.pc else none))).retire := by
    rw [step_of_running running, execution, executeWord_of_decode _ decoded, settled]
  rw [follow_jump] at stepped
  refine ⟨target, goes, ?_, ?_⟩
  · rw [stepped]
    exact (RegisterFile.pc_clearZero _).trans (RegisterFile.pc_setPc _ _)
  · intro links
    rw [stepped, links]
    simp only [retire, RegisterFile.clearZero, RegisterFile.setPc, ↓reduceIte]
    rw [RegisterFile.get_set_of_ne _ _ (by decide), RegisterFile.get_set_of_ne _ _ (by decide),
      RegisterFile.get_set_self]

/-- The exception of an executed word records the program counter that the word has seen. -/
theorem exceptionPc_of_fault {fault : Exception} (running : core.halted = false)
    (faults : core.execution.fault = some fault) :
    core.step.value.trap.exceptionPc = core.fetch.value.pc := by
  have refused := executeWord_refuses core.fetch.value core.executing faults
  obtain ⟨host, _, same⟩ := refused.value_eq
  rw [step_of_running running, execution, same, Execution.settled_faulted, value_raise]
  rfl

end RiscBoard.Core
