import RiscBoard.Proofs.Pipeline.Tracked

/-!
Under the flush policy the pipeline cannot be seen. The core retires the instructions that a machine
without a pipeline executes one after another, with the same state after each of them, as long as
words come from memory without faults and do not change between their fetch and their execution.
-/

namespace RiscBoard

namespace Core

/-- The word at an address, if the fetch is answered without a fault and asks no peripheral. -/
def codeWord? (core : Core) (address : UInt32) : Option UInt32 :=
  match core.mmu.translate address .exec .execute with
  | .error _ => none
  | .ok physical =>
    if core.bus.isPassive physical then some (core.bus.read physical .exec).value.1 else none

end Core

/-- The machine without a pipeline, about to execute the instruction at an address. -/
structure Sequential where
  core : Core
  address : UInt32

namespace Sequential

def start (core : Core) : Sequential := ⟨core.architecture, core.pc⟩

/-- The machine after a word that was fetched at its address. The word is executed with the program
counter three words ahead; the machine goes on where the word sends it, or with the next word. -/
def executed (machine : Sequential) (word : UInt32) : Sequential :=
  let ready := machine.core.setPc (machine.address + 12)
  let done := ready.perform word
  ⟨done, if ready.transfersFlow word then done.pc else machine.address + 4⟩

def next? (machine : Sequential) : Option (Retirement × Sequential) :=
  if machine.core.halted then none
  else
    match machine.core.mmu.translate machine.address .exec .execute with
    | .error _ => none
    | .ok physical =>
      let (word, fetched) := (machine.core.readPhysical physical .exec).value
      let next := executed ⟨fetched, machine.address⟩ word
      some (⟨machine.address, word, next.core.visible⟩, next)

def run? (machine : Sequential) : Nat → Option (List Retirement × Sequential)
  | 0 => some ([], machine)
  | count + 1 => do
    let (retirement, next) ← machine.next?
    let (later, last) ← next.run? count
    pure (retirement :: later, last)

end Sequential

namespace Tracked

def Current (tracked : Tracked) : Prop :=
  ∀ address ∈ tracked.executedFrom?,
    tracked.core.codeWord? address = some tracked.core.executing

instance (tracked : Tracked) : Decidable tracked.Current :=
  Option.decidableForallMem tracked.executedFrom?

/-- A cycle under the flush policy whose fetch is answered by memory, and whose word is current. -/
def Undisturbed (tracked : Tracked) : Prop :=
  tracked.core.control.flushOnTransfer = true ∧
    (tracked.core.halted = false → (tracked.core.codeWord? tracked.core.pc).isSome = true) ∧
    tracked.Current

instance (tracked : Tracked) : Decidable tracked.Undisturbed :=
  inferInstanceAs (Decidable (_ ∧ _ ∧ _))

/-- How far the fetches are ahead of the address that is to be executed next. -/
inductive InFlight (tracked : Tracked) (address : UInt32) : Nat → Prop where
  | none (newest : tracked.newest = none) (middle : tracked.middle = none)
      (pc : tracked.core.pc = address) : InFlight tracked address 0
  | one (newest : tracked.newest = some address) (middle : tracked.middle = none)
      (pc : tracked.core.pc = address + 4) : InFlight tracked address 1
  | two (newest : tracked.newest = some (address + 4)) (middle : tracked.middle = some address)
      (pc : tracked.core.pc = address + 8) : InFlight tracked address 2

structure Mirrors (tracked : Tracked) (machine : Sequential) (ahead : Nat) : Prop where
  shows : tracked.core.visible = machine.core.visible
  zero : tracked.core.registers.get .zero = 0
  faithful : tracked.Faithful
  inFlight : tracked.InFlight machine.address ahead

end Tracked

namespace Core

variable {core : Core}

theorem codeWord?_eq_some_iff (core : Core) (address word : UInt32) :
    core.codeWord? address = some word ↔
      ∃ physical, core.mmu.translate address .exec .execute = .ok physical ∧
        core.bus.isPassive physical = true ∧ (core.bus.read physical .exec).value.1 = word := by
  unfold codeWord?
  cases core.mmu.translate address .exec .execute with
  | error fault => simp
  | ok physical => simp

theorem exists_code (present : (core.codeWord? core.pc).isSome = true) :
    ∃ physical, core.mmu.translate core.pc .exec .execute = .ok physical ∧
      core.bus.isPassive physical = true := by
  obtain ⟨word, found⟩ := Option.isSome_iff_exists.1 present
  obtain ⟨physical, translated, passive, _⟩ := (core.codeWord?_eq_some_iff _ _).1 found
  exact ⟨physical, translated, passive⟩

/-- A fetch from memory moves the program counter and nothing else that a program can see. -/
theorem architecture_fetch (present : (core.codeWord? core.pc).isSome = true) :
    core.fetch.value.architecture = (core.setPc (core.pc + 4)).architecture := by
  obtain ⟨physical, translated, passive⟩ := exists_code present
  rw [value_fetch_of_ok translated, Bus.read_passive passive]
  rfl

theorem visible_fetch (present : (core.codeWord? core.pc).isSome = true) :
    core.fetch.value.visible = core.visible := by
  have fetched := congrArg (Core.setPc · 0) (architecture_fetch present)
  rw [visible, fetched]
  simp only [setPc, architecture, visible, RegisterFile.setPc_setPc]

theorem pc_fetch (present : (core.codeWord? core.pc).isSome = true) :
    core.fetch.value.pc = core.pc + 4 := by
  obtain ⟨physical, translated, _⟩ := exists_code present
  rw [value_fetch_of_ok translated]
  exact RegisterFile.pc_setPc _ _

theorem flushesOnFault_of_code (present : (core.codeWord? core.pc).isSome = true) :
    core.flushesOnFault = false := by
  obtain ⟨physical, translated, _⟩ := exists_code present
  exact flushesOnFault_of_ok translated

theorem zero_of_visible {other : Core} (same : core.visible = other.visible) :
    core.registers.get .zero = other.registers.get .zero := by
  have zeros := congrArg (fun shown => shown.registers.get Register.zero) same
  simp only [visible, setPc, RegisterFile.setPc] at zeros
  rw [RegisterFile.get_set_of_ne _ _ (by decide), RegisterFile.get_set_of_ne _ _ (by decide)]
    at zeros
  exact zeros

theorem zero_step (running : core.halted = false) :
    core.step.value.registers.get .zero = 0 := by
  rw [step_of_running running]
  exact RegisterFile.get_set_self _ _ _

/-- An empty slot leaves everything that a program can see. -/
theorem perform_zero (zero : core.registers.get .zero = 0) :
    core.perform 0 = core := by
  have added : core.registers.get 0 + core.registers.get 0 = 0 := by
    rw [show core.registers.get 0 = 0 from zero]
    rfl
  have same : (core.registers.set 0 0).clearZero = core.registers := by
    apply RegisterFile.ext_get
    intro register
    simp only [RegisterFile.clearZero, RegisterFile.get_set]
    split
    · next first => rw [← first, zero]
    · split
      · next first => rw [← first]; exact zero.symm
      · rfl
  rw [perform, executeWord_zero, Execution.settled_completed, added, clearZero, same]

theorem step_of_bubble (running : core.halted = false)
    (present : (core.codeWord? core.pc).isSome = true) (zero : core.registers.get .zero = 0)
    (slot : core.executing = 0) :
    core.transfers = false ∧ core.step.value.visible = core.visible ∧
      core.step.value.pc = core.pc + 4 := by
  have stays : core.transfers = false := by
    rw [transfers, slot]
    exact transfersFlow_zero _
  have fetchedZero : core.fetch.value.registers.get .zero = 0 := by
    rw [zero_of_visible (visible_fetch present)]
    exact zero
  refine ⟨stays, ?_, ?_⟩
  · calc core.step.value.visible
        = (core.fetch.value.perform core.executing).visible := visible_step running
      _ = (core.fetch.value.perform 0).visible := by rw [slot]
      _ = core.fetch.value.visible := by rw [perform_zero fetchedZero]
      _ = core.visible := visible_fetch present
  · calc core.step.value.pc
        = core.fetch.value.pc := pc_step_of_stays running stays
      _ = core.pc + 4 := pc_fetch present

end Core

namespace Sequential

theorem next?_of_code {machine : Sequential} {word : UInt32}
    (running : machine.core.halted = false)
    (code : machine.core.codeWord? machine.address = some word) :
    machine.next? =
      some (⟨machine.address, word, (machine.executed word).core.visible⟩,
        machine.executed word) := by
  obtain ⟨physical, translated, passive, found⟩ :=
    (machine.core.codeWord?_eq_some_iff _ _).1 code
  have fetched : (machine.core.readPhysical physical .exec).value = (word, machine.core) := by
    rw [Core.value_readPhysical, found, Bus.read_passive passive]
  have runs : ¬ machine.core.halted = true := by
    rw [running]
    decide
  rw [next?, if_neg runs, translated]
  simp only [fetched]

end Sequential

namespace Tracked

variable {tracked : Tracked} {machine : Sequential} {ahead : Nat}

theorem step_of_stays (running : tracked.core.halted = false)
    (present : (tracked.core.codeWord? tracked.core.pc).isSome = true)
    (stays : tracked.core.transfers = false) :
    tracked.step = ⟨tracked.core.step.value, some tracked.core.pc, tracked.newest⟩ := by
  obtain ⟨physical, translated, _⟩ := Core.exists_code present
  have origin : fetchedFrom? tracked.core = some tracked.core.pc := by
    rw [fetchedFrom?, tracked.core.fetchFault?_eq_none_iff.2 ⟨physical, translated⟩]
  simp only [step, running, Core.flushesOnTransfer, stays, Core.flushesOnFault_of_code present,
    origin, Bool.and_false, Bool.false_eq_true, ↓reduceIte]

theorem step_of_transfers (running : tracked.core.halted = false)
    (flushes : tracked.core.control.flushOnTransfer = true)
    (transfers : tracked.core.transfers = true) :
    tracked.step = ⟨tracked.core.step.value, none, none⟩ := by
  simp only [step, running, Core.flushesOnTransfer, flushes, transfers, Bool.and_self,
    Bool.false_eq_true, ↓reduceIte]

theorem Mirrors.bubble (mirrors : tracked.Mirrors machine ahead)
    (undisturbed : tracked.Undisturbed) (running : tracked.core.halted = false)
    (empty : tracked.middle = none) :
    tracked.retired = [] ∧ tracked.step.Mirrors machine (ahead + 1) := by
  have present := undisturbed.2.1 running
  have slot : tracked.core.executing = 0 := by
    rw [Core.executing_eq, Core.flushesOnFault_of_code present]
    exact mirrors.faithful.middle empty
  obtain ⟨stays, shows, pcStepped⟩ := Core.step_of_bubble running present mirrors.zero slot
  constructor
  · rw [retired, executedFrom?, empty, ite_self]
  · have faithful := mirrors.faithful.step
    rw [step_of_stays running present stays] at faithful ⊢
    refine ⟨shows.trans mirrors.shows, Core.zero_step running, faithful, ?_⟩
    cases mirrors.inFlight with
    | none newest middle pc =>
      rw [pc] at pcStepped ⊢
      exact .one rfl newest pcStepped
    | one newest middle pc =>
      rw [pc] at pcStepped ⊢
      rw [UInt32.add_assoc] at pcStepped
      exact .two rfl newest pcStepped
    | two newest middle pc =>
      rw [empty] at middle
      cases middle

theorem Mirrors.next?_of_code (mirrors : tracked.Mirrors machine ahead)
    (running : tracked.core.halted = false) {word : UInt32}
    (code : tracked.core.codeWord? machine.address = some word) :
    machine.next? =
      some (⟨machine.address, word, (machine.executed word).core.visible⟩,
        machine.executed word) := by
  have sameHalted : tracked.core.visible.halted = machine.core.visible.halted := by
    rw [mirrors.shows]
  have sameCode : tracked.core.visible.codeWord? machine.address =
      machine.core.visible.codeWord? machine.address := by
    rw [mirrors.shows]
  exact Sequential.next?_of_code (sameHalted.symm.trans running) (sameCode.symm.trans code)

/-- Two words are in flight and a cycle fetches the third: its word sees what the machine without a
pipeline sees. -/
theorem Mirrors.ready (mirrors : tracked.Mirrors machine ahead)
    (present : (tracked.core.codeWord? tracked.core.pc).isSome = true)
    (pc : tracked.core.pc = machine.address + 8) :
    tracked.core.fetch.value.architecture =
      (machine.core.setPc (machine.address + 12)).architecture := by
  have third : tracked.core.pc + 4 = machine.address + 12 := by
    rw [pc, UInt32.add_assoc]
    rfl
  calc tracked.core.fetch.value.architecture
      = (tracked.core.setPc (tracked.core.pc + 4)).architecture := Core.architecture_fetch present
    _ = (tracked.core.setPc (machine.address + 12)).architecture := by rw [third]
    _ = (machine.core.setPc (machine.address + 12)).architecture :=
        Core.architecture_setPc mirrors.shows _

/-- A cycle that executes a fetched word is an instruction of the machine without a pipeline. -/
theorem Mirrors.instruction (mirrors : tracked.Mirrors machine ahead)
    (undisturbed : tracked.Undisturbed) (running : tracked.core.halted = false)
    (full : tracked.middle ≠ none) :
    ∃ retirement next left, ahead = 2 ∧ tracked.retired = [retirement] ∧
      machine.next? = some (retirement, next) ∧ tracked.step.Mirrors next left := by
  obtain ⟨flushes, fetches, current⟩ := undisturbed
  have present := fetches running
  cases mirrors.inFlight with
  | none newest middle pc => exact absurd middle full
  | one newest middle pc => exact absurd middle full
  | two newest middle pc =>
    have executedFrom : tracked.executedFrom? = some machine.address := by
      rw [executedFrom?, running, Core.flushesOnFault_of_code present]
      exact middle
    have next := mirrors.next?_of_code running (current machine.address executedFrom)
    have ready := mirrors.ready present pc
    have flow := Core.transfersFlow_eq ready tracked.core.executing
    have shows : tracked.core.step.value.visible =
        (machine.executed tracked.core.executing).core.visible := by
      calc tracked.core.step.value.visible
          = (tracked.core.fetch.value.perform tracked.core.executing).visible :=
            Core.visible_step running
        _ = (machine.executed tracked.core.executing).core.visible :=
            Core.perform_visible ready _
    have retires : tracked.retired = [⟨machine.address, tracked.core.executing,
        (machine.executed tracked.core.executing).core.visible⟩] := by
      rw [retired, executedFrom, shows]
    have faithful := mirrors.faithful.step
    cases transfers : tracked.core.transfers with
    | true =>
      have following : (machine.executed tracked.core.executing).address =
          tracked.core.step.value.pc := by
        calc (machine.executed tracked.core.executing).address
            = ((machine.core.setPc (machine.address + 12)).perform tracked.core.executing).pc :=
              if_pos (flow.symm.trans transfers)
          _ = (tracked.core.fetch.value.perform tracked.core.executing).pc :=
              (Core.perform_pc ready _).symm
          _ = tracked.core.step.value.pc := (Core.pc_step running).symm
      refine ⟨_, _, 0, rfl, retires, next, ?_⟩
      rw [step_of_transfers running flushes transfers] at faithful ⊢
      exact ⟨shows, Core.zero_step running, faithful, .none rfl rfl following.symm⟩
    | false =>
      have following : (machine.executed tracked.core.executing).address =
          machine.address + 4 := by
        apply if_neg
        rw [← flow]
        exact Bool.eq_false_iff.1 transfers
      have pcStepped : tracked.core.step.value.pc = machine.address + 4 + 8 := by
        calc tracked.core.step.value.pc
            = tracked.core.fetch.value.pc := Core.pc_step_of_stays running transfers
          _ = tracked.core.pc + 4 := Core.pc_fetch present
          _ = machine.address + 8 + 4 := by rw [pc]
          _ = machine.address + 4 + 8 := by rw [UInt32.add_assoc, UInt32.add_assoc]; rfl
      refine ⟨_, _, 2, rfl, retires, next, ?_⟩
      rw [step_of_stays running present transfers] at faithful ⊢
      refine ⟨shows, Core.zero_step running, faithful, ?_⟩
      rw [following]
      refine .two ?_ newest pcStepped
      rw [pc, UInt32.add_assoc]
      rfl

/-- A run of the core mirrors a run of the machine without a pipeline, and falls behind by no more
than two cycles for each instruction. -/
theorem Mirrors.run (count : Nat) (mirrors : tracked.Mirrors machine ahead)
    (undisturbed : ∀ cycle < count, (tracked.after cycle).Undisturbed) :
    ∃ last left,
      machine.run? (tracked.retirements count).length =
        some (tracked.retirements count, last) ∧
      (tracked.after count).Mirrors last left ∧
      ((tracked.after count).core.halted = true ∨
        count + ahead ≤ 3 * (tracked.retirements count).length + left) := by
  -- On the cycles, for all pairs that mirror each other: an empty slot leaves the machine where it is
  -- and uses up one of the cycles that the core may fall behind, a word advances both.
  induction count generalizing tracked machine ahead with
  | zero => exact ⟨machine, ahead, rfl, mirrors, .inr (by simp [retirements])⟩
  | succ count ih =>
    have first := undisturbed 0 (Nat.succ_pos count)
    have later : ∀ cycle < count, (tracked.step.after cycle).Undisturbed := by
      intro cycle inside
      exact undisturbed (cycle + 1) (Nat.succ_lt_succ inside)
    cases halted : tracked.core.halted with
    | true =>
      rw [step_of_halted halted] at later
      obtain ⟨last, left, ran, ends, _⟩ := ih mirrors later
      have stays : tracked.after (count + 1) = tracked.after count := by
        rw [after, step_of_halted halted]
      have none : tracked.retirements (count + 1) = tracked.retirements count := by
        rw [retirements, retired_of_halted halted, step_of_halted halted, List.nil_append]
      rw [stays, none]
      refine ⟨last, left, ran, ends, .inl ?_⟩
      rw [core_after, Core.after_of_halted halted, halted]
    | false =>
      by_cases empty : tracked.middle = none
      · obtain ⟨silent, next⟩ := mirrors.bubble first halted empty
        obtain ⟨last, left, ran, ends, progress⟩ := ih next later
        rw [after, retirements, silent, List.nil_append]
        refine ⟨last, left, ran, ends, progress.imp_right ?_⟩
        intro bound
        omega
      · obtain ⟨retirement, next, behind, full, retires, advances, mirrored⟩ :=
          mirrors.instruction first halted empty
        obtain ⟨last, left, ran, ends, progress⟩ := ih mirrored later
        rw [after, retirements, retires]
        refine ⟨last, left, ?_, ends, progress.imp_right ?_⟩
        · simp only [List.cons_append, List.nil_append, List.length_cons, Sequential.run?, advances,
            Option.bind_eq_bind, Option.bind_some, ran]
          rfl
        · intro bound
          simp only [List.cons_append, List.nil_append, List.length_cons]
          omega

theorem InFlight.le_two {address : UInt32} (inFlight : tracked.InFlight address ahead) :
    ahead ≤ 2 := by
  cases inFlight with
  | none _ _ _ => decide
  | one _ _ _ => decide
  | two _ _ _ => decide

theorem start_mirrors {core : Core} (empty : core.pipeline = .empty)
    (zero : core.registers.get .zero = 0) :
    (start core).Mirrors (Sequential.start core) 0 :=
  ⟨rfl, zero, start_faithful empty, .none rfl rfl rfl⟩

end Tracked

/-- The instructions that a run retires, with what each of them leaves behind, are those of the
machine without a pipeline; the cycles in between leave everything. An undisturbed run goes on until
the core halts, and spends no more than three cycles on an instruction. -/
theorem Core.pipeline_invisible (core : Core) (count : Nat) (empty : core.pipeline = .empty)
    (zero : core.registers.get .zero = 0)
    (undisturbed : ∀ cycle < count, ((Tracked.start core).after cycle).Undisturbed) :
    ∃ last,
      (Sequential.start core).run? ((Tracked.start core).retirements count).length =
        some ((Tracked.start core).retirements count, last) ∧
      (core.after count).visible = last.core.visible ∧
      ((core.after count).halted = true ∨
        count ≤ 3 * ((Tracked.start core).retirements count).length + 2) := by
  have mirrors := Tracked.start_mirrors empty zero
  obtain ⟨last, left, ran, ends, progress⟩ := mirrors.run count undisturbed
  have sameCore := (Tracked.start core).core_after count
  rw [show (Tracked.start core).core = core from rfl] at sameCore
  rw [← sameCore]
  refine ⟨last, ran, ends.shows, progress.imp_right ?_⟩
  intro bound
  have behind := ends.inFlight.le_two
  omega

def Core.looping : Core :=
  { create 0 (.ofImage ⟨#[0xc0, 0x01, 0x40, 0x88, 0xe0, 0xff, 0x01, 0x90]⟩) with
    control := ⟨8, 0⟩ }

theorem Core.looping_sequential :
    ∃ last,
      (Sequential.start looping).run? 3 = some ((Tracked.start looping).retirements 7, last) ∧
      (looping.after 7).visible = last.core.visible := by
  have undisturbed : ∀ cycle < 7, ((Tracked.start looping).after cycle).Undisturbed := by
    decide +kernel
  have three : ((Tracked.start looping).retirements 7).length = 3 := by decide +kernel
  obtain ⟨last, ran, shows, _⟩ :=
    pipeline_invisible looping 7 rfl (by decide +kernel) undisturbed
  rw [three] at ran
  exact ⟨last, ran, shows⟩

end RiscBoard
