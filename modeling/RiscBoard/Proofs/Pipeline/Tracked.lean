import RiscBoard.Proofs.Bus.Reading
import RiscBoard.Proofs.Core.Architecture

/-!
A core together with the addresses that the words in flight were fetched from. A slot without an
address was never fetched and holds nothing. The words that are executed from slots with an address
are the instructions that a run retires.
-/

namespace RiscBoard

structure Retirement where
  address : UInt32
  word : UInt32
  state : Core

/-- A core and the origins of its two newest words in flight. The third one has been executed. -/
structure Tracked where
  core : Core
  newest : Option UInt32
  middle : Option UInt32

namespace Tracked

def start (core : Core) : Tracked := ⟨core, none, none⟩

def executedFrom? (tracked : Tracked) : Option UInt32 :=
  if tracked.core.halted || tracked.core.flushesOnFault then none else tracked.middle

def fetchedFrom? (core : Core) : Option UInt32 :=
  match core.fetchFault? with
  | none => some core.pc
  | some _ => none

/-- One cycle. The origins move on with the words, and are lost where the pipeline is emptied. -/
def step (tracked : Tracked) : Tracked :=
  if tracked.core.halted then tracked
  else if tracked.core.flushesOnTransfer then ⟨tracked.core.step.value, none, none⟩
  else
    { core := tracked.core.step.value
      newest := fetchedFrom? tracked.core
      middle := if tracked.core.flushesOnFault then none else tracked.newest }

def after (tracked : Tracked) : Nat → Tracked
  | 0 => tracked
  | count + 1 => tracked.step.after count

def retired (tracked : Tracked) : List Retirement :=
  match tracked.executedFrom? with
  | none => []
  | some address => [⟨address, tracked.core.executing, tracked.core.step.value.visible⟩]

def retirements (tracked : Tracked) : Nat → List Retirement
  | 0 => []
  | count + 1 => tracked.retired ++ tracked.step.retirements count

theorem step_of_halted {tracked : Tracked} (halted : tracked.core.halted = true) :
    tracked.step = tracked := by
  rw [step, if_pos halted]

theorem retired_of_halted {tracked : Tracked} (halted : tracked.core.halted = true) :
    tracked.retired = [] := by
  rw [retired, executedFrom?, halted]
  rfl

/-- To track origins does not change what the core does. -/
theorem core_step (tracked : Tracked) : tracked.step.core = tracked.core.step.value := by
  unfold step
  split
  · next halted => rw [Core.step_of_halted halted]
  · split
    · rfl
    · rfl

theorem core_after (tracked : Tracked) (count : Nat) :
    (tracked.after count).core = tracked.core.after count := by
  induction count generalizing tracked with
  | zero => rfl
  | succ count ih => rw [after, ih, core_step, Core.after_succ]

/-- A slot without an origin is empty. -/
structure Faithful (tracked : Tracked) : Prop where
  newest : tracked.newest = none → tracked.core.pipeline.newest = 0
  middle : tracked.middle = none → tracked.core.pipeline.middle = 0

theorem start_faithful {core : Core} (empty : core.pipeline = .empty) : (start core).Faithful := by
  constructor
  · intro _
    exact congrArg Pipeline.newest empty
  · intro _
    exact congrArg Pipeline.middle empty

theorem Faithful.step {tracked : Tracked} (faithful : tracked.Faithful) :
    tracked.step.Faithful := by
  cases halted : tracked.core.halted with
  | true =>
    rw [step_of_halted halted]
    exact faithful
  | false =>
    have flight := Core.pipeline_step halted
    have moved := Core.middle_step halted
    cases flushes : tracked.core.flushesOnTransfer with
    | true =>
      rw [flushes] at flight
      simp only [Tracked.step, halted, flushes, ↓reduceIte, Bool.false_eq_true]
      exact ⟨fun _ => congrArg Pipeline.newest flight, fun _ => congrArg Pipeline.middle flight⟩
    | false =>
      simp only [Tracked.step, halted, flushes, ↓reduceIte, Bool.false_eq_true]
      constructor
      · intro noOrigin
        unfold fetchedFrom? at noOrigin
        split at noOrigin
        · cases noOrigin
        · next fault faults =>
          exact Core.newest_step_of_fetchFault halted ((Core.fetchFault?_eq_some_iff _ _).1 faults)
      · intro noOrigin
        rw [flushes, Bool.or_false] at moved
        rw [moved]
        split
        · rfl
        · next kept =>
          rw [if_neg kept] at noOrigin
          exact faithful.newest noOrigin

end Tracked

end RiscBoard
