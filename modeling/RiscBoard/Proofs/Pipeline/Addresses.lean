import RiscBoard.Proofs.Pipeline.Advance

/-!
Where the words in flight come from under the flush policy. The program counter tells it: a word that
entered the pipeline some cycles ago was fetched that many words below the program counter, since
whatever sets the program counter otherwise also empties the pipeline. So an executed word finds the
program counter three words ahead of its own address.
-/

namespace RiscBoard

theorem Pipeline.slots_shiftIn (pipeline : Pipeline) (word : UInt32) :
    (pipeline.shiftIn word).slots = word :: pipeline.slots.take 2 := rfl

theorem Pipeline.eq_zero_of_slots_empty {age : Nat} {word : UInt32}
    (held : Pipeline.empty.slots[age]? = some word) : word = 0 := by
  have member := List.mem_of_getElem? held
  simpa [slots, empty] using member

namespace Core

/-- After `count` cycles of a run, a word was fetched `age + 1` cycles ago, from an address that is as
many words below the program counter. Cycles of a halted core do not count. -/
def Traces (core : Core) (count age : Nat) (word : UInt32) : Prop :=
  ∃ cycle, cycle + (age + 1) ≤ count ∧
    (cycle + (age + 1) < count → (core.after (cycle + (age + 1))).halted = true) ∧
    (core.after cycle).fetchedWord? = some word ∧
    (core.after cycle).pc = (core.after count).pc - UInt32.ofNat (4 * (age + 1))

/-- The word fetched in this cycle is executed two cycles later: nothing empties the pipeline before
that, and the core still runs. -/
structure Delivers (core : Core) (word : UInt32) : Prop where
  fetched : core.fetchedWord? = some word
  keptByWords : core.droppedByTransfer = false
  keptByFetches : core.droppedByFetchFault = false
  running : (core.after 2).halted = false

/-- This cycle executes its word with the program counter three words past an address, which is what
an exception records, what a branch saves, and what relative branches start from. -/
structure SeesAddress (core : Core) (address : UInt32) : Prop where
  counter : core.fetch.value.pc = address + 12
  exceptionPc : core.execution.fault.isSome = true →
    core.step.value.trap.exceptionPc = address + 12
  link : ∀ instruction, Instruction.decode core.executing = .ok instruction →
    core.fetch.value.takesBranch instruction = true → instruction.links = true →
      core.step.value.registers.get .link = address + 12
  target : ∀ instruction distance, Instruction.decode core.executing = .ok instruction →
    core.fetch.value.takesBranch instruction = true →
    instruction.distance? core.fetch.value.registers = some distance →
      core.step.value.pc = address + 12 + distance

variable {core : Core} {count age : Nat} {word : UInt32}

theorem transfers_of_keeps (policy : core.control.flushOnTransfer = true)
    (keeps : core.flushesOnTransfer = false) : core.transfers = false := by
  rw [flushesOnTransfer, policy, Bool.true_and] at keeps
  exact keeps

theorem fetchFault?_of_keeps (policy : core.control.flushOnTransfer = true)
    (keeps : core.flushesOnFault = false) : core.fetchFault? = none := by
  rw [flushesOnFault, policy, Bool.true_and] at keeps
  exact Option.isSome_eq_false_iff.1 keeps |> Option.isNone_iff_eq_none.1

theorem halted_after (earlier : (core.after count).halted = true) {later : Nat}
    (order : count ≤ later) : (core.after later).halted = true := by
  obtain ⟨more, rfl⟩ := Nat.exists_eq_add_of_le order
  rw [after_add, after_of_halted earlier]
  exact earlier

namespace Traces

theorem next (traces : core.Traces count age word)
    (running : (core.after count).halted = false)
    (moves : (core.after (count + 1)).pc = (core.after count).pc + 4) :
    core.Traces (count + 1) (age + 1) word := by
  obtain ⟨cycle, inside, ends, fetched, origin⟩ := traces
  refine ⟨cycle, by omega, ?_, fetched, ?_⟩
  · intro before
    have halted := halted_after (ends (by omega)) inside
    rw [running] at halted
    cases halted
  · have further : UInt32.ofNat (4 * (age + 1 + 1)) = UInt32.ofNat (4 * (age + 1)) + 4 :=
      UInt32.ofNat_add (4 * (age + 1)) 4
    rw [moves, further, origin]
    grind

theorem of_halted (traces : core.Traces count age word)
    (halted : (core.after count).halted = true) : core.Traces (count + 1) age word := by
  obtain ⟨cycle, inside, ends, fetched, origin⟩ := traces
  refine ⟨cycle, by omega, ?_, fetched, ?_⟩
  · intro _
    by_cases last : cycle + (age + 1) = count
    · rw [last]
      exact halted
    · exact ends (by omega)
  · rw [after_succ_last, step_of_halted halted]
    exact origin

end Traces

/-- A cycle leaves an empty pipeline, or it moves the words in flight on behind the word that it
fetches and the program counter with them. -/
theorem step_of_policy (running : core.halted = false)
    (policy : core.control.flushOnTransfer = true) :
    core.step.value.pipeline = .empty ∨
      ∃ word, core.fetchedWord? = some word ∧
        core.step.value.pipeline = core.pipeline.shiftIn word ∧
        core.step.value.pc = core.pc + 4 := by
  have flight := pipeline_step running
  cases dropped : core.flushesOnTransfer with
  | true =>
    rw [dropped] at flight
    exact .inl flight
  | false =>
    rw [dropped] at flight
    cases translated : core.mmu.translate core.pc .exec .execute with
    | error fault =>
      left
      rw [flight, pipeline_fetch_of_fault translated, policy]
      rfl
    | ok physical =>
      right
      have fetched := fetchedWord?_of_ok running translated
      refine ⟨_, fetched, ?_, pc_step_of_fetchedWord fetched (transfers_of_keeps policy dropped)⟩
      rw [flight, pipeline_fetch_of_ok translated]
      rfl

theorem slots_trace (empty : core.pipeline = .empty)
    (policy : ∀ cycle < count, (core.after cycle).control.flushOnTransfer = true) :
    ∀ age word, (core.after count).pipeline.slots[age]? = some word →
      word = 0 ∨ core.Traces count age word := by
  induction count with
  | zero =>
    intro age word held
    rw [after_zero, empty] at held
    exact .inl (Pipeline.eq_zero_of_slots_empty held)
  | succ count ih =>
    have before := ih fun cycle inside => policy cycle (by omega)
    intro age word held
    cases halted : (core.after count).halted with
    | true =>
      rw [after_succ_last, step_of_halted halted] at held
      exact (before age word held).imp_right fun traces => traces.of_halted halted
    | false =>
      rcases step_of_policy halted (policy count (Nat.lt_succ_self count)) with
        emptied | ⟨fetched, found, shifted, moves⟩
      · rw [after_succ_last, emptied] at held
        exact .inl (Pipeline.eq_zero_of_slots_empty held)
      · rw [← after_succ_last] at shifted moves
        rw [shifted, Pipeline.slots_shiftIn] at held
        cases age with
        | zero =>
          right
          cases held
          refine ⟨count, Nat.le_refl _, fun before => by omega, found, ?_⟩
          rw [moves]
          exact (UInt32.add_sub_cancel _ 4).symm
        | succ age =>
          rw [List.getElem?_cons_succ, List.getElem?_take] at held
          split at held
          · exact (before age word held).imp_right fun traces => traces.next halted moves
          · cases held

theorem Delivers.executedWord (delivers : core.Delivers word) :
    (core.after 2).executedWord? = some word := by
  rw [executedWord_after_two delivers.fetched, delivers.running, delivers.keptByWords,
    delivers.keptByFetches]
  rfl

/-- A word other than that of an empty slot was delivered by the fetch two cycles before. -/
theorem delivers_of_executedWord (fetched : core.fetchedWord? = some word)
    (executed : (core.after 2).executedWord? = some word) (nonzero : word ≠ 0) :
    core.Delivers word := by
  have running := running_of_executedWord executed
  rw [executedWord_after_two fetched, running] at executed
  refine ⟨fetched, ?_, ?_, running⟩
  · cases dropped : core.droppedByTransfer with
    | false => rfl
    | true =>
      simp only [dropped, Bool.true_or, Bool.false_eq_true, ↓reduceIte, Option.some.injEq]
        at executed
      exact absurd executed.symm nonzero
  · cases dropped : core.droppedByFetchFault with
    | false => rfl
    | true =>
      simp only [dropped, Bool.or_true, Bool.false_eq_true, ↓reduceIte, Option.some.injEq]
        at executed
      exact absurd executed.symm nonzero

theorem executed_delivered (executed : (core.after count).executedWord? = some word)
    (traced : ∀ age word, (core.after count).pipeline.slots[age]? = some word →
      word = 0 ∨ core.Traces count age word) :
    word = 0 ∨ ∃ cycle, cycle + 2 = count ∧ (core.after cycle).Delivers word := by
  by_cases zero : word = 0
  · exact .inl zero
  · right
    have running := running_of_executedWord executed
    have middle : (core.after count).pipeline.slots[1]? = some word := by
      have found := executed
      simp only [executedWord?, running, executing_eq, Bool.false_eq_true, ↓reduceIte] at found
      split at found
      · cases found
        exact absurd rfl zero
      · exact found
    obtain ⟨cycle, inside, ends, fetched, _⟩ := (traced 1 word middle).resolve_left zero
    rcases Nat.eq_or_lt_of_le inside with last | earlier
    · subst last
      rw [after_add] at executed
      exact ⟨cycle, rfl, delivers_of_executedWord fetched executed zero⟩
    · have halted := halted_after (ends earlier) inside
      rw [running] at halted
      cases halted

/-- Under the policy nothing that would move the program counter can happen while a word is in
flight that is going to be executed. -/
theorem Delivers.counter (delivers : core.Delivers word)
    (policy : ∀ cycle ≤ 2, (core.after cycle).control.flushOnTransfer = true) :
    (core.after 2).fetch.value.pc = core.pc + 12 := by
  have fetched := delivers.fetched
  have byWords := delivers.keptByWords
  have byFetches := delivers.keptByFetches
  rw [droppedByTransfer, Bool.or_eq_false_iff] at byWords
  rw [droppedByFetchFault, Bool.or_eq_false_iff] at byFetches
  have running : core.step.value.halted = false := running_of_step delivers.running
  have second : core.step.value.fetchedWord?.isSome = true :=
    (fetchedWord?_isSome running).2 (fetchFault?_of_keeps (policy 1 (by decide)) byFetches.1)
  have third : (core.after 2).fetchedWord?.isSome = true :=
    (fetchedWord?_isSome delivers.running).2
      (fetchFault?_of_keeps (policy 2 (Nat.le_refl 2)) byFetches.2)
  obtain ⟨middle, fetchedSecond⟩ := Option.isSome_iff_exists.1 second
  obtain ⟨newest, fetchedThird⟩ := Option.isSome_iff_exists.1 third
  exact (pc_third_fetch delivers.fetched
    (transfers_of_keeps (policy 0 (Nat.zero_le 2)) byWords.1) fetchedSecond
    (transfers_of_keeps (policy 1 (by decide)) byWords.2) fetchedThird).2

theorem seesAddress {address : UInt32} (running : core.halted = false)
    (counter : core.fetch.value.pc = address + 12) : core.SeesAddress address := by
  refine ⟨counter, ?_, ?_, ?_⟩
  · intro faults
    obtain ⟨fault, ends⟩ := Option.isSome_iff_exists.1 faults
    rw [exceptionPc_of_fault running ends, counter]
  · intro instruction decoded taken links
    obtain ⟨_, _, _, saved⟩ := step_of_branch running decoded taken
    rw [saved links, counter]
  · intro instruction distance decoded taken relative
    obtain ⟨target, goes, arrives, _⟩ := step_of_branch running decoded taken
    rw [Instruction.target?_of_distance relative] at goes
    rw [arrives, ← Option.some.inj goes, ← counter]
    rfl

/-- In a run under the flush policy every word in flight is empty or was fetched from the address that
its slot tells. Executed words, of which only those of empty slots were not fetched two cycles before,
find the program counter three words past their own address. -/
theorem flight_follows_counter (core : Core) (count : Nat) (empty : core.pipeline = .empty)
    (policy : ∀ cycle ≤ count, (core.after cycle).control.flushOnTransfer = true) :
    (∀ age word, (core.after count).pipeline.slots[age]? = some word →
      word = 0 ∨ core.Traces count age word) ∧
    (∀ word, (core.after count).executedWord? = some word →
      word = 0 ∨ ∃ cycle, cycle + 2 = count ∧ (core.after cycle).Delivers word) ∧
    ∀ cycle word, cycle + 2 = count → (core.after cycle).Delivers word →
      (core.after count).executedWord? = some word ∧
        (core.after count).SeesAddress (core.after cycle).pc := by
  have traced := slots_trace empty fun cycle inside => policy cycle (Nat.le_of_lt inside)
  refine ⟨traced, fun word executed => executed_delivered executed traced, ?_⟩
  · rintro cycle word rfl delivers
    rw [after_add]
    have during : ∀ later ≤ 2, ((core.after cycle).after later).control.flushOnTransfer = true := by
      intro later inside
      rw [← after_add]
      exact policy (cycle + later) (Nat.add_le_add_left inside cycle)
    exact ⟨delivers.executedWord, seesAddress delivers.running (delivers.counter during)⟩

def dividingFirst : Core :=
  { create 0 (.ofImage ⟨#[0x10, 0x00, 0x42, 0x00]⟩) with control := ⟨8, 0⟩ }

theorem dividingFirst_delivers : (dividingFirst.after 0).Delivers 0x00420010 := by
  constructor
  · decide +kernel
  · decide +kernel
  · decide +kernel
  · decide +kernel

/-- The division faults two cycles after its fetch from address 0, and its exception records 12. -/
theorem dividingFirst_records_twelve :
    dividingFirst.Traces 2 1 0x00420010 ∧ (dividingFirst.after 3).trap.exceptionPc = 12 := by
  have policy : ∀ cycle ≤ 2, (dividingFirst.after cycle).control.flushOnTransfer = true := by
    decide +kernel
  obtain ⟨traced, _, seen⟩ := flight_follows_counter dividingFirst 2 rfl policy
  have middle : (dividingFirst.after 2).pipeline.slots[1]? = some 0x00420010 := by decide +kernel
  have faults : (dividingFirst.after 2).execution.fault.isSome = true := by decide +kernel
  have start : (dividingFirst.after 0).pc + 12 = 12 := by decide +kernel
  obtain ⟨_, sees⟩ := seen 0 0x00420010 rfl dividingFirst_delivers
  refine ⟨(traced 1 _ middle).resolve_left (by decide), ?_⟩
  rw [after_succ_last, sees.exceptionPc faults, start]

end Core

end RiscBoard
