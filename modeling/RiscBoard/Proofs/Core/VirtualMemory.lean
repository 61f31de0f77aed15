import RiscBoard.Proofs.Core.Cycle

/-!
When virtual memory stays as it is. Programs change it by moves to coprocessor 4, and exceptions change
its control word when they change the privilege level under one of the policies for that. At level 0
no exception changes the level.
-/

namespace RiscBoard

/-- Whether an instruction moves a value to this coprocessor, whatever the cell. -/
def Instruction.movesToCop (cop : UInt8) : Instruction → Bool
  | .moveToCop _ target _ => target == cop
  | _ => false

def Mmu.movedToBy (word : UInt32) : Bool :=
  match Instruction.decode word with
  | .ok instruction => instruction.movesToCop 4
  | .error _ => false

def MmuControl.ignoresTransitions (control : MmuControl) : Bool :=
  !control.remapOnTransition && !control.disableOnLevel0 && !control.enableOnLevel1

namespace Core

def Steady (core : Core) : Prop :=
  core.privilege = .level0 ∨ core.mmu.control.ignoresTransitions = true

def LeavesMmu (core : Core) (count : Nat) : Prop :=
  ∀ cycle < count, ∀ word ∈ (core.after cycle).executedWord?, Mmu.movedToBy word = false

instance (core : Core) (count : Nat) : Decidable (core.LeavesMmu count) :=
  have (cycle : Nat) :
      Decidable (∀ word ∈ (core.after cycle).executedWord?, Mmu.movedToBy word = false) :=
    Option.decidableForallMem _
  inferInstanceAs (Decidable (∀ cycle < count, _))

theorem transitionControl_of_ignores {control : MmuControl}
    (ignores : control.ignoresTransitions = true) (level : PrivilegeLevel) :
    transitionControl control level = control := by
  simp only [MmuControl.ignoresTransitions, Bool.and_eq_true, Bool.not_eq_true'] at ignores
  obtain ⟨⟨noRemap, noDisable⟩, noEnable⟩ := ignores
  cases level with
  | level0 => simp only [transitionControl, noRemap, noDisable, Bool.false_eq_true, ↓reduceIte]
  | level1 => simp only [transitionControl, noRemap, noEnable, Bool.false_eq_true, ↓reduceIte]
  | level2 => simp only [transitionControl, noRemap, Bool.false_eq_true, ↓reduceIte]
  | level3 => simp only [transitionControl, noRemap, Bool.false_eq_true, ↓reduceIte]

theorem Steady.mmuAt_raised {core : Core} (steady : core.Steady) :
    core.mmuAt core.privilege.raised = core.mmu := by
  unfold mmuAt
  split
  · rfl
  · next changes =>
    cases steady with
    | inl top =>
      rw [top] at changes
      exact absurd rfl changes
    | inr ignores => rw [transitionControl_of_ignores ignores]

/-- What a part of a cycle does to virtual memory: nothing, and so it stays. -/
structure KeepsMmu (core later : Core) : Prop where
  same : later.mmu = core.mmu
  steady : later.Steady

theorem KeepsMmu.trans {core later last : Core} (first : core.KeepsMmu later)
    (second : later.KeepsMmu last) : core.KeepsMmu last :=
  ⟨second.same.trans first.same, second.steady⟩

theorem Steady.raise {core : Core} (steady : core.Steady) (exception : Exception) :
    core.KeepsMmu (core.raise exception).value := by
  rw [value_raise, steady.mmuAt_raised]
  refine ⟨rfl, ?_⟩
  cases steady with
  | inl top =>
    left
    rw [top]
    rfl
  | inr ignores => exact .inr ignores

theorem mmu_setCell_of_cop {core : Core} {cop : UInt8} {cell : UInt16} {register : CopRegister}
    (resolved : CopRegister.resolve cop cell = .ok register) (other : cop ≠ 4) (value : UInt32) :
    (core.setCell register value).mmu = core.mmu := by
  have number : cop.toNat ≠ 4 := fun same => other (UInt8.toNat_inj.1 same)
  unfold CopRegister.resolve at resolved
  split at resolved
  · cases resolved; rfl
  · cases resolved; rfl
  · cases resolved; rfl
  · cases resolved; rfl
  · cases resolved; rfl
  · next four _ => exact absurd four number
  · next index four _ => exact absurd four number
  · cases resolved

theorem Effect.keepsMmu {core : Core} {instruction : Instruction} {execution : Execution}
    (effect : Effect core instruction execution) (steady : core.Steady)
    (unmoved : instruction.movesToCop 4 = false) : core.KeepsMmu execution.settled := by
  cases effect with
  | refused fault => exact steady.raise fault
  | raised host request fault present decided seen =>
    have asked : { core with host := some (host.asked request) }.Steady := steady
    have taken := asked.raise fault
    exact ⟨taken.same, taken.steady⟩
  | resumed host request present decided seen stays => exact ⟨rfl, steady⟩
  | stopped host request present decided seen stays => exact ⟨rfl, steady⟩
  | idle stays => exact ⟨rfl, steady⟩
  | branched linked target saved taken => exact ⟨rfl, steady⟩
  | movedToCop source cop cell register is resolved =>
    subst is
    have other : cop ≠ 4 := by
      intro four
      rw [Instruction.movesToCop, four] at unmoved
      cases unmoved
    have same : (core.setCell register (core.registers.get source)).mmu = core.mmu :=
      mmu_setCell_of_cop resolved other _
    refine ⟨same, ?_⟩
    rw [Execution.settled_completed, Steady, same, setCell_eq]
    exact steady
  | stored size source address physical is translated => exact ⟨rfl, steady⟩
  | loaded size dest address physical is translated =>
    rw [Execution.settled_completed, value_writeRegister]
    exact ⟨rfl, steady⟩
  | delivered dest value target =>
    rw [Execution.settled_completed, value_writeRegister]
    exact ⟨rfl, steady⟩

theorem Steady.fetch {core : Core} (steady : core.Steady) : core.KeepsMmu core.fetch.value := by
  cases translated : core.mmu.translate core.pc .exec .execute with
  | error fault =>
    rw [value_fetch_of_fault translated]
    have shifted : { core with pipeline := core.pipeline.shiftIn 0 }.Steady := steady
    have taken := shifted.raise fault
    exact ⟨taken.same, taken.steady⟩
  | ok physical =>
    rw [value_fetch_of_ok translated]
    exact ⟨rfl, steady⟩

theorem Steady.executeWord {core : Core} (steady : core.Steady) {word : UInt32}
    (unmoved : Mmu.movedToBy word = false) :
    core.KeepsMmu (core.executeWord word).value.settled := by
  cases decoded : Instruction.decode word with
  | error error =>
    rw [executeWord_of_undecodable core decoded]
    exact steady.raise .illegalInstruction
  | ok instruction =>
    rw [Mmu.movedToBy, decoded] at unmoved
    rw [executeWord_of_decode core decoded]
    exact (execute_effect core instruction).keepsMmu steady unmoved

theorem Steady.step {core : Core} (steady : core.Steady)
    (unmoved : ∀ word ∈ core.executedWord?, Mmu.movedToBy word = false) :
    core.KeepsMmu core.step.value := by
  cases halted : core.halted with
  | true =>
    rw [step_of_halted halted]
    exact ⟨rfl, steady⟩
  | false =>
    have executed : core.executedWord? = some core.executing := by
      rw [executedWord?, halted]
      rfl
    have fetched := steady.fetch
    have performed := fetched.trans
      (fetched.steady.executeWord (unmoved core.executing executed))
    rw [step_of_running halted]
    exact ⟨performed.same, performed.steady⟩

theorem LeavesMmu.last {core : Core} {count : Nat} (leaves : core.LeavesMmu (count + 1)) :
    core.LeavesMmu count ∧
      ∀ word ∈ (core.after count).executedWord?, Mmu.movedToBy word = false :=
  ⟨fun cycle before => leaves cycle (Nat.lt_succ_of_lt before),
    leaves count (Nat.lt_succ_self count)⟩

theorem Steady.after {core : Core} (steady : core.Steady) {count : Nat}
    (leaves : core.LeavesMmu count) : core.KeepsMmu (core.after count) := by
  induction count with
  | zero => exact ⟨rfl, steady⟩
  | succ count ih =>
    obtain ⟨earlier, last⟩ := leaves.last
    have kept := ih earlier
    rw [after_succ_last]
    exact kept.trans (kept.steady.step last)

end Core

end RiscBoard
