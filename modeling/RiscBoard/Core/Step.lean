import RiscBoard.Core.Execute

/-!
One cycle of the core: a word is fetched into the pipeline, then the oldest word is executed, then
register 0 is cleared. Faults are taken inside the cycle, so that it always ends in a core that can
go on.
-/

namespace RiscBoard.Core

/-- Fetches the word at the program counter. After a fault an empty slot enters the pipeline in its
place and the exception is taken. -/
def fetch (core : Core) : Traced Core :=
  match core.mmu.translate core.pc .exec .execute with
  | .error fault => { core with pipeline := core.pipeline.shiftIn 0 }.raise fault
  | .ok physical => do
    let (word, fetched) ← core.readPhysical physical .exec
    pure { fetched with
      pipeline := fetched.pipeline.shiftIn word
      registers := fetched.registers.setPc (fetched.pc + 4) }

def executeOldest (core : Core) : Traced Core := do
  let execution ← core.executeWord core.pipeline.executing
  match execution.fault with
  | none => pure execution.core
  | some fault => execution.core.raise fault

def retire (core : Core) : Core :=
  { core with registers := core.registers.clearZero, cycles := core.cycles + 1 }

def step (core : Core) : Traced Core :=
  if core.halted then pure core
  else do
    let fetched ← core.fetch
    let executed ← fetched.executeOldest
    pure executed.retire

/-- The core after some number of cycles, and the events of all of them in front of those seen
before, the newest first. -/
def stepsAfter (core : Core) (seen : List Event) : Nat → Core × List Event
  | 0 => (core, seen)
  | count + 1 =>
    let next := core.step
    stepsAfter next.value (next.events.reverse ++ seen) count

def steps (core : Core) (count : Nat) : Traced Core :=
  let (last, seen) := stepsAfter core [] count
  ⟨last, seen.reverse⟩

theorem stepsAfter_eq_steps (core : Core) (seen : List Event) (count : Nat) :
    core.stepsAfter seen count =
      ((core.steps count).value, (core.steps count).events.reverse ++ seen) := by
  induction count generalizing core seen with
  | zero => rfl
  | succ count ih =>
    simp only [steps, stepsAfter, List.reverse_reverse, List.append_nil]
    rw [ih, ih core.step.value core.step.events.reverse]
    simp only [List.append_assoc]

@[simp] theorem steps_zero (core : Core) : core.steps 0 = pure core := rfl

theorem steps_succ (core : Core) (count : Nat) :
    core.steps (count + 1) = (do
      let next ← core.step
      next.steps count) := by
  apply Traced.ext
  · simp only [steps, stepsAfter, Traced.value_bind]
    rw [stepsAfter_eq_steps]
    rfl
  · simp only [steps, stepsAfter, Traced.events_bind]
    rw [stepsAfter_eq_steps]
    simp only [steps, List.reverse_reverse, List.append_nil, List.reverse_append]

end RiscBoard.Core
