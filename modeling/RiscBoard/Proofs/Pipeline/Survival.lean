import RiscBoard.Proofs.Bus.Reading
import RiscBoard.Proofs.Core.Flow

/-!
What becomes of a fetched word. It is executed two cycles after its fetch unless the pipeline is
emptied before. An older word that transfers control may empty it; so may the fault of a younger
fetch, and then words that precede the faulting address are lost before they are executed.
-/

namespace RiscBoard.Core

def droppedByTransfer (core : Core) : Bool :=
  core.flushesOnTransfer || core.step.value.flushesOnTransfer

/-- The fault of a younger fetch empties the pipeline while the word fetched in this cycle is in
flight. -/
def droppedByFetchFault (core : Core) : Bool :=
  core.step.value.flushesOnFault || core.step.value.step.value.flushesOnFault

/-- The word fetched in this cycle is executed two cycles later, unless a word executed in between
transfers control or halts the core. -/
def FetchSurvives (core : Core) (word : UInt32) : Prop :=
  core.transfers = true ∨ core.step.value.transfers = true ∨ (core.after 2).halted = true ∨
    (core.after 2).executedWord? = some word

theorem running_of_fetchedWord {core : Core} {word : UInt32}
    (fetched : core.fetchedWord? = some word) : core.halted = false := by
  cases halted : core.halted with
  | false => rfl
  | true =>
    rw [fetchedWord?, halted] at fetched
    cases fetched

theorem newest_step_of_fetchedWord {core : Core} {word : UInt32}
    (fetched : core.fetchedWord? = some word) :
    core.step.value.pipeline.newest = if core.flushesOnTransfer then 0 else word := by
  have running := running_of_fetchedWord fetched
  rw [pipeline_step running]
  split
  · rfl
  · simp only [fetchedWord?, running, Bool.false_eq_true, ↓reduceIte] at fetched
    split at fetched
    · cases fetched
    · next physical translated =>
      rw [pipeline_fetch_of_ok translated]
      exact Option.some.inj fetched

/-- The word executed two cycles after a fetch is the fetched one, or that of an empty slot if the
pipeline was emptied in between. -/
theorem executedWord_after_two {core : Core} {word : UInt32}
    (fetched : core.fetchedWord? = some word) :
    (core.after 2).executedWord? =
      if (core.after 2).halted then none
      else some (if core.droppedByTransfer || core.droppedByFetchFault then 0 else word) := by
  -- The word is the newest one after its own cycle, the middle one after the next, and executed in
  -- the third, whose fetch can still drop it.
  have newest := newest_step_of_fetchedWord fetched
  rw [after_succ, after_succ, after_zero]
  cases halted : core.step.value.halted with
  | true =>
    rw [step_of_halted halted, executedWord?, halted]
    rfl
  | false =>
    have middle := middle_step halted
    have executed := core.step.value.step.value.executing_eq
    unfold executedWord?
    split
    · rfl
    · rw [executed, middle, newest, droppedByTransfer, droppedByFetchFault]
      cases core.flushesOnTransfer <;> cases core.step.value.flushesOnTransfer <;>
        cases core.step.value.flushesOnFault <;>
        cases core.step.value.step.value.flushesOnFault <;> rfl

/-- What a run executes two cycles after a fetch, and when the fetched word survives: the fault of a
younger fetch must not empty the pipeline, unless the word does nothing, or was to be dropped. -/
theorem fetched_word_survives (core : Core) (count : Nat) (word : UInt32)
    (fetched : (core.after count).fetchedWord? = some word) :
    (core.after (count + 2)).executedWord? =
        (if (core.after (count + 2)).halted then none
        else some (if (core.after count).droppedByTransfer ||
          (core.after count).droppedByFetchFault then 0 else word)) ∧
      ((core.after count).FetchSurvives word ↔
        (core.after count).transfers = true ∨ (core.after (count + 1)).transfers = true ∨
          (core.after (count + 2)).halted = true ∨ word = 0 ∨
          (core.after count).droppedByFetchFault = false) := by
  have executed := executedWord_after_two fetched
  rw [after_add core count 2, after_succ_last core count]
  refine ⟨executed, ?_⟩
  rw [FetchSurvives, executed]
  cases first : (core.after count).transfers with
  | true => simp
  | false =>
    cases second : (core.after count).step.value.transfers with
    | true => simp
    | false =>
      cases halted : ((core.after count).after 2).halted with
      | true => simp
      | false =>
        simp only [droppedByTransfer, flushesOnTransfer, first, second]
        cases (core.after count).droppedByFetchFault with
        | true => simp [eq_comm]
        | false => simp

def twoLoads (mmu : Mmu) : Core :=
  { create 0 (.ofImage ⟨#[0xc0, 0x01, 0x40, 0x88, 0x40, 0x02, 0x80, 0x88]⟩) with
    control := ⟨8, 0⟩
    mmu := mmu }

def eightBytes : Mmu :=
  { Mmu.cleared with control := ⟨1⟩ }.setActiveTable (MappingTable.empty.set ⟨0, by decide⟩ ⟨0, 0, 8, 1⟩)

/-- Where every fetch succeeds the first word is executed. -/
theorem first_load_survives : (twoLoads .cleared).FetchSurvives 0x884001c0 := by
  have survives := (fetched_word_survives (twoLoads .cleared) 0 0x884001c0 (by decide +kernel)).2
  apply survives.2
  right; right; right; right
  decide +kernel

/-- The third fetch faults and drops both words, of which none was executed. -/
theorem fetch_fault_loses_load :
    ¬ ∀ (core : Core) (count : Nat) (word : UInt32),
      (core.after count).fetchedWord? = some word → (core.after count).FetchSurvives word := by
  intro promised
  have fetched : ((twoLoads eightBytes).after 0).fetchedWord? = some 0x884001c0 := by
    decide +kernel
  have first : (twoLoads eightBytes).transfers = false := by decide +kernel
  have second : (twoLoads eightBytes).step.value.transfers = false := by decide +kernel
  have running : ((twoLoads eightBytes).after 2).halted = false := by decide +kernel
  have executed : ((twoLoads eightBytes).after 2).executedWord? = some 0 := by decide +kernel
  obtain transferred | transferred | halted | kept := promised (twoLoads eightBytes) 0 _ fetched
  · exact absurd (first.symm.trans transferred) (by decide)
  · exact absurd (second.symm.trans transferred) (by decide)
  · exact absurd (running.symm.trans halted) (by decide)
  · exact absurd (executed.symm.trans kept) (by decide)

end RiscBoard.Core
