import RiscBoard.Proofs.Core.Effect

/-!
One cycle in its parts, and runs of cycles. A running core fetches, executes the oldest word in
flight, takes the exception of that word and retires it; the fetch of a cycle either brings a word
or ends in a fault of its own.
-/

namespace RiscBoard.Core

def fetchFault? (core : Core) : Option Exception :=
  match core.mmu.translate core.pc .exec .execute with
  | .error fault => some fault
  | .ok _ => none

def fetchedWord? (core : Core) : Option UInt32 :=
  if core.halted then none
  else
    match core.mmu.translate core.pc .exec .execute with
    | .error _ => none
    | .ok physical => some (core.bus.read physical .exec).value.1

def executing (core : Core) : UInt32 := core.fetch.value.pipeline.executing

def executedWord? (core : Core) : Option UInt32 :=
  if core.halted then none else some core.executing

def execution (core : Core) : Execution := (core.fetch.value.executeWord core.executing).value

def transfers (core : Core) : Bool := core.fetch.value.transfersFlow core.executing

theorem value_fetch_of_ok {core : Core} {physical : UInt32}
    (translated : core.mmu.translate core.pc .exec .execute = .ok physical) :
    core.fetch.value =
      { core with
        registers := core.registers.setPc (core.pc + 4)
        pipeline := core.pipeline.shiftIn (core.bus.read physical .exec).value.1
        bus := (core.bus.read physical .exec).value.2 } := by
  simp only [fetch, translated]
  rfl

theorem value_fetch_of_fault {core : Core} {fault : Exception}
    (faults : core.mmu.translate core.pc .exec .execute = .error fault) :
    core.fetch.value = ({ core with pipeline := core.pipeline.shiftIn 0 }.raise fault).value := by
  simp only [fetch, faults]

theorem fetchFault?_eq_some_iff (core : Core) (fault : Exception) :
    core.fetchFault? = some fault ↔
      core.mmu.translate core.pc .exec .execute = .error fault := by
  unfold fetchFault?
  split
  · next found translated => simp [translated]
  · next physical translated => simp [translated]

theorem fetchFault?_eq_none_iff (core : Core) :
    core.fetchFault? = none ↔
      ∃ physical, core.mmu.translate core.pc .exec .execute = .ok physical := by
  unfold fetchFault?
  split
  · next found translated => simp [translated]
  · next physical translated => simp [translated]

theorem step_eq_of_halted {core : Core} (halted : core.halted = true) : core.step = pure core :=
  if_pos halted

theorem step_of_halted {core : Core} (halted : core.halted = true) : core.step.value = core := by
  rw [step_eq_of_halted halted, Traced.value_pure]

theorem step_of_running {core : Core} (running : core.halted = false) :
    core.step.value = core.execution.settled.retire := by
  simp only [step, running, Bool.false_eq_true, ↓reduceIte, executeOldest, Traced.value_bind,
    Traced.value_pure]
  unfold Execution.settled
  split
  · next completes => simp only [execution, executing] at completes ⊢; rw [completes]; rfl
  · next fault faults => simp only [execution, executing] at faults ⊢; rw [faults]

def after (core : Core) (count : Nat) : Core := (core.steps count).value

@[simp] theorem after_zero (core : Core) : core.after 0 = core := rfl

theorem after_succ (core : Core) (count : Nat) :
    core.after (count + 1) = core.step.value.after count := by
  simp only [after, steps_succ, Traced.value_bind]

theorem after_of_halted {core : Core} (halted : core.halted = true) (count : Nat) :
    core.after count = core := by
  induction count with
  | zero => rfl
  | succ count ih => rw [after_succ, step_of_halted halted, ih]

theorem after_add (core : Core) (first second : Nat) :
    core.after (first + second) = (core.after first).after second := by
  induction first generalizing core with
  | zero => rw [Nat.zero_add, after_zero]
  | succ first ih => rw [Nat.add_right_comm, after_succ, after_succ, ih]

theorem after_succ_last (core : Core) (count : Nat) :
    core.after (count + 1) = (core.after count).step.value := by
  rw [after_add, after_succ, after_zero]

theorem steps_add (core : Core) (first second : Nat) :
    core.steps (first + second) = (do
      let reached ← core.steps first
      reached.steps second) := by
  induction first generalizing core with
  | zero => rw [Nat.zero_add, steps_zero, pure_bind]
  | succ first ih =>
    rw [Nat.add_right_comm, steps_succ, steps_succ, bind_assoc]
    exact congrArg (core.step >>= ·) (funext fun next => ih next)

theorem steps_of_halted {core : Core} (halted : core.halted = true) (count : Nat) :
    core.steps count = pure core := by
  induction count with
  | zero => rfl
  | succ count ih =>
    rw [steps_succ, step_eq_of_halted halted, pure_bind, ih]

theorem steps_succ_last (core : Core) (count : Nat) :
    core.steps (count + 1) = (do
      let reached ← core.steps count
      reached.step) := by
  rw [steps_add]
  refine congrArg (core.steps count >>= ·) (funext fun reached => ?_)
  rw [steps_succ]
  exact bind_pure reached.step

end RiscBoard.Core
