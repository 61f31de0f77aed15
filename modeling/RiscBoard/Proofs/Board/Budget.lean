import Mathlib.Logic.Function.Iterate
import RiscBoard.Board.Run
import RiscBoard.Proofs.Board.Reset

/-!
Runs with a budget of cycles. Each tick of a running core counts one cycle, whatever it executes and
however it fails, so that a run ends, after the first tick that halts the core or uses up the budget.
What it comes to is a number of ticks of the board alone; the speed decides only when the observer is
told to wait (`run_honours_budget`).
-/

namespace RiscBoard

namespace Core

theorem Effect.cycles {core : Core} {instruction : Instruction} {execution : Execution}
    (effect : Effect core instruction execution) : execution.core.cycles = core.cycles := by
  cases effect with
  | movedToCop source cop cell register is resolved =>
    rw [setCell_eq]
    rfl
  | loaded size dest address physical is translated =>
    rw [value_writeRegister]
    rfl
  | delivered dest value target =>
    rw [value_writeRegister]
    rfl
  | refused | raised | resumed | stopped | idle | branched | stored => rfl

theorem cycles_settled (core : Core) (word : UInt32) :
    (core.executeWord word).value.settled.cycles = core.cycles := by
  have executed : (core.executeWord word).value.core.cycles = core.cycles := by
    cases decoded : Instruction.decode word with
    | error error =>
      rw [executeWord_of_undecodable core decoded]
      rfl
    | ok instruction =>
      rw [executeWord_of_decode core decoded]
      exact (execute_effect core instruction).cycles
  unfold Execution.settled
  split
  next => exact executed
  next =>
    rw [value_raise]
    exact executed

theorem cycles_fetch (core : Core) : core.fetch.value.cycles = core.cycles := by
  cases translated : core.mmu.translate core.pc .exec .execute with
  | error fault =>
    rw [value_fetch_of_fault translated, value_raise]
  | ok physical =>
    rw [value_fetch_of_ok translated]

/-- A running core counts a cycle, also one in which it faults, faults twice or is halted. -/
theorem cycles_step_of_running {core : Core} (running : core.halted = false) :
    core.step.value.cycles = core.cycles + 1 := by
  have settled : core.execution.settled.cycles = core.cycles :=
    (cycles_settled core.fetch.value core.executing).trans core.cycles_fetch
  rw [step_of_running running, retire, settled]

end Core

namespace Throttle

def after (throttle : Throttle) (count : Nat) : Throttle :=
  (fun throttle => throttle.tick.2)^[count] throttle

def due? (throttle : Option Throttle) (index : Nat) : Option UInt64 :=
  throttle.bind fun throttle => (throttle.after index).tick.1

theorem due?_succ (throttle : Option Throttle) (index : Nat) :
    due? throttle (index + 1) = due? (throttle.map fun throttle => throttle.tick.2) index := by
  cases throttle with
  | none => rfl
  | some throttle => rfl

end Throttle

section Observer

variable {m : Type → Type} [Monad m]

def Observer.watch (observer : Observer m) (events : List Event) (due : Option UInt64) : m Unit := do
  observer.observe events
  match due with
  | none => pure ()
  | some time => observer.waitUntil time

namespace Board

def ticked (board : Board) (count : Nat) : Board := (fun board => board.tick.value)^[count] board

def watched (observer : Observer m) (count : Nat) (throttle : Option Throttle) (board : Board) :
    m Unit :=
  (List.range count).forM fun index =>
    observer.watch (board.ticked index).tick.events (Throttle.due? throttle index)

@[simp] theorem ticked_zero (board : Board) : board.ticked 0 = board := rfl

theorem ticked_succ (board : Board) (count : Nat) :
    board.ticked (count + 1) = board.tick.value.ticked count := rfl

theorem ticked_add (board : Board) (first second : Nat) :
    board.ticked (first + second) = (board.ticked first).ticked second := by
  rw [ticked, Nat.add_comm, Function.iterate_add_apply]
  rfl

theorem ticked_succ_last (board : Board) (count : Nat) :
    board.ticked (count + 1) = (board.ticked count).tick.value :=
  board.ticked_add count 1

theorem watched_succ [LawfulMonad m] (observer : Observer m) (count : Nat)
    (throttle : Option Throttle) (board : Board) :
    board.watched observer (count + 1) throttle = (do
      observer.watch board.tick.events (Throttle.due? throttle 0)
      board.tick.value.watched observer count (throttle.map fun throttle => throttle.tick.2)) := by
  rw [watched, List.range_succ_eq_map, List.forM_eq_forM, List.forM_cons, List.forM_map]
  simp only [ticked_zero, Nat.succ_eq_add_one, ticked_succ, Throttle.due?_succ]
  rfl

def HasEnded (board : Board) (budget : UInt64) : Prop :=
  board.core.halted = true ∨ budget.toNat ≤ board.core.cycles.toNat

instance (board : Board) (budget : UInt64) : Decidable (board.HasEnded budget) :=
  inferInstanceAs (Decidable (_ ∨ _))

theorem isFinished_iff (board : Board) (budget : UInt64) :
    board.isFinished (some budget) = true ↔ board.HasEnded budget := by
  simp only [isFinished, HasEnded, Option.any_some, Bool.or_eq_true, decide_eq_true_eq,
    UInt64.le_iff_toNat_le]

/-- This is the least number of ticks after which a run with this budget has ended. -/
structure StopsAfter (board : Board) (budget : UInt64) (ticks : Nat) : Prop where
  ended : (board.ticked ticks).HasEnded budget
  first : ∀ earlier < ticks, ¬ (board.ticked earlier).HasEnded budget

section Step

variable {board : Board} {budget : UInt64} {ticks : Nat}

theorem tick_of_halted (halted : board.core.halted = true) : board.tick = pure board := by
  rw [tick, Core.step_eq_of_halted halted]
  rfl

theorem cycles_tick (goesOn : ¬ board.HasEnded budget) :
    board.tick.value.core.cycles.toNat = board.core.cycles.toNat + 1 := by
  obtain ⟨running, below⟩ := not_or.1 goesOn
  have counted : board.tick.value.core.cycles = board.core.cycles + 1 :=
    Core.cycles_step_of_running (Bool.eq_false_iff.2 running)
  have bound := budget.toNat_lt
  have one : (1 : UInt64).toNat = 1 := rfl
  rw [counted, UInt64.toNat_add, one]
  exact Nat.mod_eq_of_lt (by omega)

theorem runFor_of_ended (ended : board.HasEnded budget) (observer : Observer m) (fuel : Nat)
    (throttle : Option Throttle) :
    runFor observer (some budget) fuel throttle board = pure board := by
  cases fuel with
  | zero => rfl
  | succ fuel => exact if_pos ((board.isFinished_iff budget).2 ended)

theorem runFor_of_goesOn [LawfulMonad m] (goesOn : ¬ board.HasEnded budget)
    (observer : Observer m) (fuel : Nat) (throttle : Option Throttle) :
    runFor observer (some budget) (fuel + 1) throttle board = (do
      observer.watch board.tick.events (Throttle.due? throttle 0)
      runFor observer (some budget) fuel (throttle.map fun throttle => throttle.tick.2)
        board.tick.value) := by
  have unfinished : ¬ board.isFinished (some budget) = true :=
    fun finished => goesOn ((board.isFinished_iff budget).1 finished)
  rw [runFor, if_neg unfinished]
  unfold Observer.watch
  cases throttle with
  | none => simp [Throttle.due?]
  | some throttle =>
    cases due : throttle.tick.1 with
    | none => simp [Throttle.due?, Throttle.after, due]
    | some time => simp [Throttle.due?, Throttle.after, due]

theorem StopsAfter.of_ended (ended : board.HasEnded budget) : board.StopsAfter budget 0 :=
  ⟨ended, fun earlier before => absurd before (Nat.not_lt_zero earlier)⟩

theorem StopsAfter.succ (goesOn : ¬ board.HasEnded budget)
    (later : board.tick.value.StopsAfter budget ticks) : board.StopsAfter budget (ticks + 1) := by
  refine ⟨later.ended, fun earlier before => ?_⟩
  cases earlier with
  | zero => exact goesOn
  | succ earlier => exact later.first earlier (Nat.lt_of_succ_lt_succ before)

/-- The first tick of a run that has not ended yet can be taken apart from the others. -/
theorem StopsAfter.cases (stops : board.StopsAfter budget ticks) :
    (ticks = 0 ∧ board.HasEnded budget) ∨
      ∃ later, ticks = later + 1 ∧ ¬ board.HasEnded budget ∧
        board.tick.value.StopsAfter budget later := by
  cases ticks with
  | zero => exact .inl ⟨rfl, stops.ended⟩
  | succ later =>
    refine .inr ⟨later, rfl, stops.first 0 (Nat.succ_pos later), stops.ended, ?_⟩
    intro earlier before
    exact stops.first (earlier + 1) (Nat.succ_lt_succ before)

theorem StopsAfter.cycles_ticked (stops : board.StopsAfter budget ticks) {count : Nat}
    (within : count ≤ ticks) :
    (board.ticked count).core.cycles.toNat = board.core.cycles.toNat + count := by
  induction count with
  | zero => rfl
  | succ count ih =>
    rw [ticked_succ_last, cycles_tick (stops.first count within), ih (Nat.le_of_succ_le within),
      Nat.add_assoc]

theorem exists_stopsAfter (board : Board) (budget : UInt64) :
    ∃ ticks, ticks ≤ board.cycleBound (some budget) ∧ board.StopsAfter budget ticks := by
  generalize bound : board.cycleBound (some budget) = left
  induction left generalizing board with
  | zero =>
    have ended : board.HasEnded budget := .inr (Nat.le_of_sub_eq_zero bound)
    exact ⟨0, Nat.le_refl 0, .of_ended ended⟩
  | succ left ih =>
    by_cases ended : board.HasEnded budget
    · exact ⟨0, Nat.zero_le _, .of_ended ended⟩
    · have less : board.tick.value.cycleBound (some budget) = left := by
        rw [cycleBound] at bound ⊢
        rw [cycles_tick ended]
        omega
      obtain ⟨ticks, few, stops⟩ := ih board.tick.value less
      exact ⟨ticks + 1, Nat.succ_le_succ few, stops.succ ended⟩

theorem StopsAfter.unique {other : Nat} (stops : board.StopsAfter budget ticks)
    (stopsOther : board.StopsAfter budget other) : ticks = other := by
  rcases Nat.lt_trichotomy ticks other with less | same | greater
  · exact absurd stops.ended (stopsOther.first ticks less)
  · exact same
  · exact absurd stopsOther.ended (stops.first other greater)

/-- Whoever watches, a run that is given enough fuel is its ticks. -/
theorem StopsAfter.runFor [LawfulMonad m] (stops : board.StopsAfter budget ticks)
    (observer : Observer m) {fuel : Nat} (enough : ticks ≤ fuel) (throttle : Option Throttle) :
    Board.runFor observer (some budget) fuel throttle board = (do
      board.watched observer ticks throttle
      pure (board.ticked ticks)) := by
  induction ticks generalizing board fuel throttle with
  | zero =>
    have ended : board.HasEnded budget := stops.ended
    have nothing : board.watched observer 0 throttle = pure () := rfl
    rw [runFor_of_ended ended observer fuel throttle, nothing, pure_bind]
    rfl
  | succ ticks ih =>
    obtain ⟨none, -⟩ | ⟨later, same, goesOn, stopsLater⟩ := stops.cases
    · cases none
    · cases same
      obtain ⟨fuel, rfl⟩ : ∃ less, fuel = less + 1 := ⟨fuel - 1, by omega⟩
      rw [runFor_of_goesOn goesOn, ih stopsLater (Nat.le_of_succ_le_succ enough), watched_succ,
        bind_assoc]
      rfl

theorem hasEnded_max (board : Board) (first second : UInt64) :
    board.HasEnded (max first second) ↔ board.HasEnded first ∧ board.HasEnded second := by
  have larger : (max first second).toNat ≤ board.core.cycles.toNat ↔
      first.toNat ≤ board.core.cycles.toNat ∧ second.toNat ≤ board.core.cycles.toNat := by
    have isMax : max first second = if first ≤ second then second else first := rfl
    rw [isMax]
    split
    next ordered =>
      have below := UInt64.le_iff_toNat_le.1 ordered
      omega
    next unordered =>
      have above := mt UInt64.le_iff_toNat_le.2 unordered
      omega
  rw [HasEnded, larger, or_and_left]
  rfl

/-- What has ended for one budget has ended for it while a run goes on for another one. -/
theorem StopsAfter.hasEnded_ticked {next : UInt64} (stops : board.StopsAfter next ticks)
    (ended : board.HasEnded budget) : (board.ticked ticks).HasEnded budget := by
  obtain ⟨rfl, -⟩ | ⟨later, -, goesOn, -⟩ := stops.cases
  · exact ended
  · rcases ended with halted | reached
    · exact absurd (.inl halted) goesOn
    · right
      rw [stops.cycles_ticked (Nat.le_refl ticks)]
      omega

/-- A run to one budget and then to another one is a run to the larger one. -/
theorem StopsAfter.append {next : UInt64} {more : Nat} (stops : board.StopsAfter budget ticks)
    (stopsNext : (board.ticked ticks).StopsAfter next more) :
    board.StopsAfter (max budget next) (ticks + more) := by
  constructor
  · rw [hasEnded_max, ticked_add]
    exact ⟨stopsNext.hasEnded_ticked stops.ended, stopsNext.ended⟩
  · intro earlier before ended
    obtain ⟨endedFirst, endedNext⟩ := (hasEnded_max _ budget next).1 ended
    rcases Nat.lt_or_ge earlier ticks with inFirst | inSecond
    · exact stops.first earlier inFirst endedFirst
    · obtain ⟨further, rfl⟩ := Nat.exists_eq_add_of_le inSecond
      rw [ticked_add] at endedNext
      exact stopsNext.first further (by omega) endedNext

end Step

structure RunsExactly (board : Board) (budget : UInt64) (ticks : Nat) : Prop where
  stops : board.StopsAfter budget ticks
  cycles : ∀ count ≤ ticks,
    (board.ticked count).core.cycles.toNat = board.core.cycles.toNat + count
  run : ∀ {m : Type → Type} [Monad m] [LawfulMonad m] (observer : Observer m) (speed : UInt64),
    board.run observer speed (some budget) = (do
      board.watched observer ticks (Throttle.ofSpeed? speed)
      pure (board.ticked ticks))
  /-- The run did not end for want of fuel. -/
  fuel : ∀ {m : Type → Type} [Monad m] [LawfulMonad m] (observer : Observer m)
    (speed : UInt64) (more : Nat),
    runFor observer (some budget) (board.cycleBound (some budget) + more) (Throttle.ofSpeed? speed)
      board = board.run observer speed (some budget)

def stopped (board : Board) (speed : UInt64) (budget : Option UInt64) : Board :=
  Id.run (board.run ⟨fun _ => pure (), fun _ => pure ()⟩ speed budget)

theorem exists_runsExactly (board : Board) (budget : UInt64) :
    ∃ ticks, board.RunsExactly budget ticks := by
  obtain ⟨ticks, few, stops⟩ := board.exists_stopsAfter budget
  refine ⟨ticks, stops, fun count => stops.cycles_ticked, ?_, ?_⟩
  · intro m _ _ observer speed
    exact stops.runFor observer few _
  · intro m _ _ observer speed more
    rw [run, stops.runFor observer few, stops.runFor observer (Nat.le_add_right_of_le few)]

theorem RunsExactly.stopped_eq {board : Board} {budget : UInt64} {ticks : Nat}
    (runs : board.RunsExactly budget ticks) (speed : UInt64) :
    board.stopped speed (some budget) = board.ticked ticks := by
  rw [stopped, runs.run]
  rfl

theorem stopped_stopped (board : Board) (first second : UInt64) (speed other third : UInt64) :
    (board.stopped speed (some first)).stopped other (some second) =
      board.stopped third (some (max first second)) := by
  obtain ⟨ticks, runs⟩ := board.exists_runsExactly first
  obtain ⟨more, runsOn⟩ := (board.ticked ticks).exists_runsExactly second
  obtain ⟨all, runsAll⟩ := board.exists_runsExactly (max first second)
  have same : all = ticks + more := runsAll.stops.unique (runs.stops.append runsOn.stops)
  rw [runs.stopped_eq, runsOn.stopped_eq, runsAll.stopped_eq, same, ticked_add]

theorem run_of_halted [LawfulMonad m] {board : Board} (halted : board.core.halted = true)
    (observer : Observer m) (speed : UInt64) (budget : Option UInt64) :
    board.run observer speed budget = pure board := by
  have finished : board.isFinished budget = true := by
    rw [isFinished, halted]
    rfl
  rw [run]
  cases board.cycleBound budget with
  | zero => rfl
  | succ fuel => exact if_pos finished

/-- A run ends and performs as many ticks as it takes until the core is halted or has had the cycles of
the budget, each of which counts one cycle; the speed has no part in it. Runs compose to one with
the larger budget. A halted core is left as it is. -/
theorem run_honours_budget (board : Board) (budget : UInt64) :
    (∃ ticks, board.RunsExactly budget ticks) ∧
      (∀ next speed other third, (board.stopped speed (some budget)).stopped other (some next) =
        board.stopped third (some (max budget next))) ∧
      (board.core.halted = true → board.tick = pure board ∧
        ∀ {m : Type → Type} [Monad m] [LawfulMonad m] (observer : Observer m) (speed : UInt64)
          (any : Option UInt64), board.run observer speed any = pure board) := by
  refine ⟨board.exists_runsExactly budget, ?_, ?_⟩
  · intro next speed other third
    exact board.stopped_stopped budget next speed other third
  · intro halted
    refine ⟨tick_of_halted halted, ?_⟩
    intro m _ _ observer speed any
    exact run_of_halted halted observer speed any

def requestingConfig : BoardConfig :=
  { BoardConfig.standard with
    memorySize := 0x4000, bios := some (Bytes.ofWords [0x78abcd00, 0x7dadc0de]) }

def haltingHost : Host := .scripted [(0xabcd00, .resume)] [(0xadc0de, .halt)]

/-- The core is halted by the fourth cycle, which a budget of three cycles does not reach. -/
theorem requesting_honours_budget :
    ∃ made, create requestingConfig = .ok made ∧
      let board := (made.value.operate (.onCore (.installHost haltingHost))).value
      let early := board.stopped 0 (some 3)
      let late := early.stopped 1000 (some 10)
      (early.core.halted = false ∧ early.core.cycles = 3 ∧ late.core.halted = true ∧
        late.core.cycles = 4) ∧
      (∃ ticks, board.RunsExactly 3 ticks) ∧ late = board.stopped 7 (some 10) ∧
        late.tick = pure late := by
  have states : (create requestingConfig).toOption.any (fun made =>
      let board := (made.value.operate (.onCore (.installHost haltingHost))).value
      let early := board.stopped 0 (some 3)
      let late := early.stopped 1000 (some 10)
      decide (early.core.halted = false ∧ early.core.cycles = 3 ∧ late.core.halted = true ∧
        late.core.cycles = 4)) = true := by
    decide +kernel
  obtain ⟨made, accepted, states⟩ := exists_of_any states
  obtain ⟨early, reached, halted, used⟩ := of_decide_eq_true states
  obtain ⟨ends, composes, -⟩ := run_honours_budget
    (made.value.operate (.onCore (.installHost haltingHost))).value 3
  have larger : max (3 : UInt64) 10 = 10 := rfl
  refine ⟨made, accepted, ⟨early, reached, halted, used⟩, ends, ?_, ?_⟩
  · rw [composes, larger]
  · obtain ⟨-, -, stays⟩ := run_honours_budget (((made.value.operate
      (.onCore (.installHost haltingHost))).value.stopped 0 (some 3)).stopped 1000 (some 10)) 0
    exact (stays halted).1

end Board

end Observer

end RiscBoard
