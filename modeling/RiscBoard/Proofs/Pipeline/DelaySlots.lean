import RiscBoard.Proofs.Pipeline.Advance

/-!
Runs without the flush policy. Nothing drops a word in flight then: the words executed by a run are
those that it fetched, two cycles later and in the same order. A taken branch therefore takes effect
behind two more words, those that follow it in memory.
-/

namespace RiscBoard.Core

/-- The word that this cycle puts in flight: the fetched one, or an empty slot if the fetch faults. -/
def shiftedIn (core : Core) : UInt32 := core.fetchedWord?.getD 0

def Keeps (core : Core) : Prop := core.control.flushOnTransfer = false ∧ core.halted = false

instance (core : Core) : Decidable core.Keeps := inferInstanceAs (Decidable (_ ∧ _))

/-- What follows a branch that was fetched in this cycle and is executed two cycles later: the two
words behind it, and then the word at its target. -/
structure BranchesBehindSlots (core : Core) (target : UInt32) : Prop where
  firstAddress : (core.after 1).pc = core.pc + 4
  firstSlot : (core.after 3).executedWord? = (core.after 1).fetchedWord?
  secondAddress : (core.after 2).pc = core.pc + 8
  secondSlot : (core.after 4).executedWord? = (core.after 2).fetchedWord?
  arrives : (core.after 3).pc = target
  continues : (core.after 5).executedWord? = (core.after 3).fetchedWord?

/-- A branch that is fetched in this cycle and taken two cycles later, while the fetches up to that
at its target succeed and the words executed before it transfer no control. -/
structure FetchesBranch (core : Core) (word : UInt32) (instruction : Instruction) : Prop where
  fetched : core.fetchedWord? = some word
  decoded : Instruction.decode word = .ok instruction
  taken : (core.after 2).fetch.value.takesBranch instruction = true
  fetches : ∀ cycle ∈ [1, 2, 3], (core.after cycle).fetchFault? = none
  stays : ∀ cycle ∈ [0, 1], (core.after cycle).transfers = false

variable {core : Core}

theorem Keeps.pipeline_step (keeps : core.Keeps) :
    core.step.value.pipeline = core.pipeline.shiftIn core.shiftedIn := by
  obtain ⟨policy, running⟩ := keeps
  have flight := Core.pipeline_step running
  rw [flushesOnTransfer, policy] at flight
  cases translated : core.mmu.translate core.pc .exec .execute with
  | error fault =>
    rw [flight, shiftedIn, fetchedWord?_of_fault running translated,
      pipeline_fetch_of_fault translated, policy]
    rfl
  | ok physical =>
    rw [flight, shiftedIn, fetchedWord?_of_ok running translated, pipeline_fetch_of_ok translated]
    rfl

theorem Keeps.executing_eq (keeps : core.Keeps) : core.executing = core.pipeline.middle := by
  rw [Core.executing_eq, flushesOnFault, keeps.1]
  rfl

theorem executing_after_two (cycle : Nat)
    (keeps : ∀ later ≤ 2, (core.after (cycle + later)).Keeps) :
    (core.after (cycle + 2)).executing = (core.after cycle).shiftedIn := by
  have first := (keeps 0 (by decide)).pipeline_step
  have second := (keeps 1 (by decide)).pipeline_step
  rw [← after_succ_last] at first second
  rw [(keeps 2 (Nat.le_refl 2)).executing_eq, second]
  change (core.after (cycle + 1)).pipeline.newest = _
  rw [first]
  rfl

theorem executedWord?_of_keeps (keeps : core.Keeps) : core.executedWord? = some core.executing := by
  rw [executedWord?, keeps.2]
  rfl

/-- The words that a run executes are those that were in flight and then those that it fetches, each
once and in the order of the fetches. -/
theorem executing_stream {count : Nat} (keeps : ∀ cycle < count + 2, (core.after cycle).Keeps) :
    (List.range (count + 2)).map (fun cycle => (core.after cycle).executing) =
      core.pipeline.middle :: core.pipeline.newest ::
        (List.range count).map fun cycle => (core.after cycle).shiftedIn := by
  have first : (core.after 0).executing = core.pipeline.middle :=
    (keeps 0 (by omega)).executing_eq
  have second : (core.after 1).executing = core.pipeline.newest := by
    have stepped := (keeps 0 (by omega)).pipeline_step
    rw [← after_succ_last] at stepped
    rw [(keeps 1 (by omega)).executing_eq, stepped]
    rfl
  rw [List.range_succ_eq_map, List.range_succ_eq_map]
  simp only [List.map_cons, List.map_map]
  rw [first, second]
  congr 2
  apply List.map_congr_left
  intro cycle inside
  rw [List.mem_range] at inside
  exact executing_after_two cycle fun later near => keeps (cycle + later) (by omega)

theorem some_shiftedIn (running : core.halted = false) (fetches : core.fetchFault? = none) :
    some core.shiftedIn = core.fetchedWord? := by
  obtain ⟨word, fetched⟩ := Option.isSome_iff_exists.1 ((fetchedWord?_isSome running).2 fetches)
  rw [shiftedIn, fetched]
  rfl

namespace FetchesBranch

variable {word : UInt32} {instruction : Instruction}

theorem pc_eq (branch : core.FetchesBranch word instruction)
    (running : ∀ cycle < 6, (core.after cycle).halted = false) :
    (core.after 1).pc = core.pc + 4 ∧ (core.after 2).pc = core.pc + 8 ∧
      (core.after 2).fetch.value.pc = core.pc + 12 := by
  obtain ⟨second, fetchedSecond⟩ := Option.isSome_iff_exists.1
    ((fetchedWord?_isSome (running 1 (by decide))).2 (branch.fetches 1 (by decide)))
  obtain ⟨third, fetchedThird⟩ := Option.isSome_iff_exists.1
    ((fetchedWord?_isSome (running 2 (by decide))).2 (branch.fetches 2 (by decide)))
  exact ⟨pc_step_of_fetchedWord branch.fetched (branch.stays 0 (by decide)),
    pc_third_fetch branch.fetched (branch.stays 0 (by decide)) fetchedSecond
      (branch.stays 1 (by decide)) fetchedThird⟩

theorem branchesBehindSlots (branch : core.FetchesBranch word instruction)
    (keeps : ∀ cycle < 6, (core.after cycle).Keeps) :
    ∃ target, instruction.target? (core.after 2).fetch.value.registers = some target ∧
      (core.after 2).fetch.value.pc = core.pc + 12 ∧ core.BranchesBehindSlots target ∧
      (instruction.links = true → (core.after 3).registers.get .link = core.pc + 12) := by
  obtain ⟨first, second, third⟩ := branch.pc_eq fun cycle inside => (keeps cycle inside).2
  -- A word that is fetched without a fault is executed two cycles later.
  have executes (cycle : Nat) (inside : cycle + 2 < 6) (fetches : (core.after cycle).fetchFault? = none) :
      (core.after (cycle + 2)).executedWord? = (core.after cycle).fetchedWord? := by
    rw [executedWord?_of_keeps (keeps _ inside),
      executing_after_two cycle fun later near => keeps (cycle + later) (by omega),
      some_shiftedIn (keeps cycle (by omega)).2 fetches]
  have executed : (core.after 2).executing = word := by
    rw [executing_after_two 0 fun later near => keeps (0 + later) (by omega), after_zero,
      shiftedIn, branch.fetched]
    rfl
  have decoded := branch.decoded
  rw [← executed] at decoded
  obtain ⟨target, goes, arrives, saves⟩ :=
    step_of_branch (keeps 2 (by decide)).2 decoded branch.taken
  rw [← after_succ_last, third] at saves
  rw [← after_succ_last] at arrives
  exact ⟨target, goes, third,
    ⟨first, executes 1 (by decide) (branch.fetches 1 (by decide)), second,
      executes 2 (by decide) (branch.fetches 2 (by decide)), arrives,
      executes 3 (by decide) (branch.fetches 3 (by decide))⟩, saves⟩

end FetchesBranch

/-- In a run without the flush policy the words that are executed are those that are fetched, with a
delay of two cycles. A branch that is taken in order is followed by the two words behind it and the
word at its target, and saves the address of the third word behind it. -/
theorem execution_follows_fetches (core : Core) (count : Nat)
    (keeps : ∀ cycle < count, (core.after cycle).Keeps) :
    (∀ cycle, cycle + 2 < count →
      (core.after (cycle + 2)).executedWord? = some (core.after cycle).shiftedIn) ∧
    (∀ fetches, fetches + 2 ≤ count →
      (List.range (fetches + 2)).map (fun cycle => (core.after cycle).executing) =
        core.pipeline.middle :: core.pipeline.newest ::
          (List.range fetches).map fun cycle => (core.after cycle).shiftedIn) ∧
    ∀ cycle word instruction, cycle + 5 < count →
      (core.after cycle).FetchesBranch word instruction →
      ∃ target,
        instruction.target? (core.after (cycle + 2)).fetch.value.registers = some target ∧
        (core.after (cycle + 2)).fetch.value.pc = (core.after cycle).pc + 12 ∧
        (core.after cycle).BranchesBehindSlots target ∧
        (instruction.links = true →
          (core.after (cycle + 3)).registers.get .link = (core.after cycle).pc + 12) := by
  refine ⟨?_, ?_, ?_⟩
  · intro cycle inside
    rw [executedWord?_of_keeps (keeps _ inside),
      executing_after_two cycle fun later near => keeps (cycle + later) (by omega)]
  · intro fetches inside
    exact executing_stream fun cycle before => keeps cycle (by omega)
  · intro cycle word instruction inside branch
    rw [after_add core cycle 2, after_add core cycle 3]
    apply branch.branchesBehindSlots
    intro later near
    rw [← after_add]
    exact keeps (cycle + later) (by omega)

def branchingFirst : Core := create 0 (.ofImage ⟨#[0x41, 0x00, 0x00, 0x10]⟩)

theorem branchingFirst_fetchesBranch :
    (branchingFirst.after 0).FetchesBranch 0x10000041 (.branch .eq true .zero .zero 32) := by
  constructor
  · decide +kernel
  · rfl
  · decide +kernel
  · decide +kernel
  · decide +kernel

/-- The branch at address 0 takes effect behind the words at 4 and 8 and saves address 12. -/
theorem branchingFirst_saves_twelve :
    branchingFirst.BranchesBehindSlots 44 ∧ (branchingFirst.after 3).registers.get .link = 12 := by
  have keeps : ∀ cycle < 6, (branchingFirst.after cycle).Keeps := by decide +kernel
  have start : (branchingFirst.after 0).pc + 12 = 12 := by decide +kernel
  have goes : (Instruction.branch .eq true .zero .zero 32).target?
      (branchingFirst.after 2).fetch.value.registers = some 44 := by decide +kernel
  obtain ⟨_, _, behind⟩ := execution_follows_fetches branchingFirst 6 keeps
  obtain ⟨target, arrives, _, slots, saves⟩ :=
    behind 0 _ _ (by decide) branchingFirst_fetchesBranch
  rw [goes] at arrives
  cases arrives
  exact ⟨slots, (saves rfl).trans start⟩

end RiscBoard.Core
