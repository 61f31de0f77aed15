import RiscBoard.Proofs.Core.Environment
import RiscBoard.Proofs.Core.Cycle
import RiscBoard.Proofs.Registers.Access

/-!
When another use of the register file makes no difference. An access that reads and writes like the
core does, apart from what a write of register 0 leaves behind until the end of the cycle, goes
through the same states and causes the same events: no instruction looks at the register that it has
written.
-/

namespace RiscBoard

/-- Only the value of the first part matters to the second one. -/
theorem Traced.bind_congr {α β : Type} {first : Traced α} {next other : α → Traced β}
    (same : next first.value = other first.value) : first >>= next = first >>= other := by
  apply Traced.ext
  · rw [Traced.value_bind, Traced.value_bind, same]
  · rw [Traced.events_bind, Traced.events_bind, same]

theorem RegisterFile.clearZero_set_zero (file : RegisterFile) (value : UInt32) :
    (file.set .zero value).clearZero = file.clearZero := by
  apply ext_get
  intro register
  simp only [clearZero, get_set]
  split
  · rfl
  · rfl

theorem Execution.value_conclude (execution : Execution) :
    execution.conclude.value = execution.settled := by
  unfold conclude settled
  cases execution.fault with
  | none => rfl
  | some fault => rfl

namespace RegisterAccess

variable (access : RegisterAccess) (core : Core)

/-- Whether access to the files of a kind has the effect of plain reads and writes, each followed by
a clearing of register 0 at the end of the cycle. It is left open what a write of register 0 does
before that. -/
structure Mirrors (Sound : RegisterFile → Prop) : Prop where
  read : ∀ {file : RegisterFile} (register : Register), Sound file →
    access.read file register = pure (file.get register)
  write : ∀ {file : RegisterFile} {register : Register} (value : UInt32), Sound file →
    register ≠ .zero → access.write file register value = file.set register value
  settle : ∀ {file : RegisterFile}, Sound file → access.settle file = file.clearZero
  settle_write : ∀ {file : RegisterFile} (value : UInt32), Sound file →
    access.settle (access.write file .zero value) = file.clearZero
  sound_set : ∀ {file : RegisterFile} {register : Register} (value : UInt32), Sound file →
    register ≠ .zero → Sound (file.set register value)
  sound_clearZero : ∀ {file : RegisterFile}, Sound file → Sound file.clearZero

/-- Two executions that differ at most in what a write of register 0 has left there. -/
inductive Shadows (Sound : RegisterFile → Prop) : Traced Execution → Traced Execution → Prop where
  | same (execution : Traced Execution) (sound : Sound execution.value.core.registers) :
      Shadows Sound execution execution
  | dropped (events : List Event) (core : Core) (value : UInt32) (sound : Sound core.registers) :
      Shadows Sound
        ⟨{ core with registers := access.write core.registers .zero value }.completed, events⟩
        ⟨{ core with registers := core.registers.set .zero value }.completed, events⟩

section Simulation

variable {access core} {Sound : RegisterFile → Prop}

theorem Shadows.after {α : Type} {first : Traced α} {next other : α → Traced Execution}
    (later : access.Shadows Sound (next first.value) (other first.value)) :
    access.Shadows Sound (first >>= next) (first >>= other) := by
  change access.Shadows Sound ⟨_, first.events ++ _⟩ ⟨_, first.events ++ _⟩
  revert later
  generalize next first.value = shadow
  generalize other first.value = execution
  intro later
  cases later with
  | same execution sound => exact .same _ sound
  | dropped events core value sound => exact .dropped _ core value sound

variable (mirrors : access.Mirrors Sound)

include mirrors

theorem Mirrors.sound_setPc {file : RegisterFile} (sound : Sound file) (address : UInt32) :
    Sound (file.setPc address) :=
  mirrors.sound_set address sound (by decide)

theorem Mirrors.deliver (sound : Sound core.registers) (dest : Register) (value : UInt32) :
    access.Shadows Sound (access.deliver core dest value) (core.deliver dest value) := by
  by_cases zero : dest = .zero
  · subst zero
    exact .dropped [] core value sound
  · have same : access.deliver core dest value = core.deliver dest value := by
      unfold RegisterAccess.deliver RegisterAccess.writeRegister
      rw [mirrors.write value sound zero]
      rfl
    rw [same]
    apply Shadows.same
    simp only [Core.deliver, Traced.value_bind, Core.value_writeRegister]
    exact mirrors.sound_set value sound zero

theorem Mirrors.executeAlu (sound : Sound core.registers) (op : AluOp) (dest : Register)
    (left right : UInt32) :
    access.Shadows Sound (access.executeAlu core op dest left right)
      (core.executeAlu op dest left right) := by
  unfold RegisterAccess.executeAlu Core.executeAlu
  rw [mirrors.read dest sound, pure_bind]
  cases op.apply (core.registers.get dest) left right with
  | error _ => exact .same _ sound
  | ok result => exact mirrors.deliver sound dest result

theorem Mirrors.executeBranch (sound : Sound core.registers) (condition : Condition) (link : Bool)
    (left right : Register) (target : UInt32 → UInt32) :
    access.Shadows Sound (access.executeBranch core condition link left right target)
      (core.executeBranch condition link left right target) := by
  unfold RegisterAccess.executeBranch Core.executeBranch
  rw [mirrors.read left sound, mirrors.read right sound, pure_bind, pure_bind]
  split
  · have linked : Sound (if link then core.registers.set .link core.pc else core.registers) := by
      split
      · exact mirrors.sound_set core.pc sound (by decide)
      · exact sound
    dsimp only
    rw [mirrors.write core.pc sound (by decide), mirrors.write (target core.pc) linked (by decide)]
    apply Shadows.same
    simp only [Traced.value_bind, Core.value_flushOnTransfer]
    exact mirrors.sound_setPc linked (target core.pc)
  · exact .same _ sound

theorem Mirrors.readOffset (sound : Sound core.registers) (offset : Offset) :
    access.readOffset core offset = pure (
      match offset with
      | .scaled index scale => core.registers.get index * scale
      | .shifted index shift => core.registers.get index <<< shift
      | .fixed immediate => immediate) := by
  cases offset with
  | scaled index scale => rw [RegisterAccess.readOffset, mirrors.read index sound, pure_bind]
  | shifted index shift => rw [RegisterAccess.readOffset, mirrors.read index sound, pure_bind]
  | fixed immediate => rfl

theorem Mirrors.effectiveAddress (sound : Sound core.registers) (address : Address) :
    access.effectiveAddress core address = pure (core.effectiveAddress address) := by
  unfold RegisterAccess.effectiveAddress Core.effectiveAddress
  rw [mirrors.read address.base sound, mirrors.readOffset sound]
  rfl

theorem Mirrors.executeLoad (sound : Sound core.registers) (size : AccessSize) (dest : Register)
    (address : Address) :
    access.Shadows Sound (access.executeLoad core size dest address)
      (core.executeLoad size dest address) := by
  unfold RegisterAccess.executeLoad Core.executeLoad
  rw [mirrors.effectiveAddress sound, pure_bind]
  cases core.mmu.translate (core.effectiveAddress address) size .read with
  | error fault => exact .same _ sound
  | ok physical =>
    let loaded := (core.readPhysical physical size).value.2
    have loadedSound : Sound loaded.registers := sound
    exact Shadows.after (mirrors.deliver loadedSound dest _)

theorem Mirrors.executeStore (sound : Sound core.registers) (size : AccessSize)
    (source : Register) (address : Address) :
    access.Shadows Sound (access.executeStore core size source address)
      (core.executeStore size source address) := by
  unfold RegisterAccess.executeStore Core.executeStore
  rw [mirrors.effectiveAddress sound, mirrors.read source sound, pure_bind, pure_bind]
  cases core.mmu.translate (core.effectiveAddress address) size .write with
  | error fault => exact .same _ sound
  | ok physical => exact .same _ sound

theorem Mirrors.execute (sound : Sound core.registers) (instruction : Instruction) :
    access.Shadows Sound (access.execute core instruction) (core.execute instruction) := by
  have asks (kind : HookKind) (immediate : UInt32) (exception : Exception) :
      access.Shadows Sound (core.executeHook kind immediate exception)
        (core.executeHook kind immediate exception) := by
    apply Shadows.same
    rw [Core.registers_executeHook]
    exact sound
  cases instruction with
  | aluRegister op dest left right =>
    rw [RegisterAccess.execute, mirrors.read left sound, mirrors.read right sound, pure_bind,
      pure_bind]
    exact mirrors.executeAlu sound op dest _ _
  | aluImmediate op dest immediate =>
    rw [RegisterAccess.execute, mirrors.read dest sound, pure_bind]
    exact mirrors.executeAlu sound op dest _ _
  | branch condition link left right distance =>
    exact mirrors.executeBranch sound condition link left right fun pc => pc + distance.toUInt32
  | branchRegister condition link relative left right target =>
    rw [RegisterAccess.execute, mirrors.read target sound, pure_bind]
    exact mirrors.executeBranch sound condition link left right _
  | moveToCop source cop cell =>
    rw [RegisterAccess.execute, mirrors.read source sound, pure_bind]
    apply Shadows.same
    simp only [Core.writeCop]
    cases CopRegister.resolve cop cell with
    | error _ => exact sound
    | ok register =>
      change Sound (core.setCell register (core.registers.get source)).registers
      rw [Core.setCell_eq]
      exact sound
  | moveFromCop dest cop cell =>
    simp only [RegisterAccess.execute, Core.execute]
    cases core.readCop cop cell with
    | error _ => exact .same _ sound
    | ok value => exact mirrors.deliver sound dest value
  | syscall immediate => exact asks _ _ _
  | trapLevel level => exact .same _ sound
  | debug immediate => exact asks _ _ _
  | softwareException immediate => exact .same _ sound
  | load size dest address => exact mirrors.executeLoad sound size dest address
  | store size source address => exact mirrors.executeStore sound size source address
  | loadAddress dest address =>
    rw [RegisterAccess.execute, mirrors.effectiveAddress sound, pure_bind]
    exact mirrors.deliver sound dest _
  | loadImmediate dest immediate shift => exact mirrors.deliver sound dest _
  | setIf condition dest source immediate =>
    rw [RegisterAccess.execute, mirrors.read source sound, pure_bind]
    exact mirrors.deliver sound dest _
  | coprocessor word => exact .same _ sound

theorem Mirrors.executeWord (sound : Sound core.registers) (word : UInt32) :
    access.Shadows Sound (access.executeWord core word) (core.executeWord word) := by
  unfold RegisterAccess.executeWord Core.executeWord
  cases Instruction.decode word with
  | error error => exact .same _ sound
  | ok instruction => exact Shadows.after (mirrors.execute sound instruction)

theorem Mirrors.sound_raise (sound : Sound core.registers) (exception : Exception) :
    Sound (core.raise exception).value.registers := by
  rw [Core.value_raise]
  exact mirrors.sound_setPc sound core.trap.handler

theorem Mirrors.sound_fetch (sound : Sound core.registers) : Sound core.fetch.value.registers := by
  cases translated : core.mmu.translate core.pc .exec .execute with
  | error fault =>
    have shifted : Sound { core with pipeline := core.pipeline.shiftIn 0 }.registers := sound
    rw [Core.value_fetch_of_fault translated]
    exact mirrors.sound_raise shifted fault
  | ok physical =>
    rw [Core.value_fetch_of_ok translated]
    exact mirrors.sound_setPc sound (core.pc + 4)

theorem Mirrors.retire (sound : Sound core.registers) : access.retire core = core.retire := by
  rw [RegisterAccess.retire, mirrors.settle sound]
  rfl

/-- At the end of the cycle nothing is left of a write of register 0. -/
theorem Mirrors.retire_dropped (sound : Sound core.registers) (value : UInt32) :
    access.retire { core with registers := access.write core.registers .zero value } =
      { core with registers := core.registers.set .zero value }.retire := by
  rw [RegisterAccess.retire, Core.retire, mirrors.settle_write value sound,
    RegisterFile.clearZero_set_zero]

theorem Mirrors.sound_settled {execution : Execution} (sound : Sound execution.core.registers) :
    Sound execution.settled.registers := by
  unfold Execution.settled
  split
  · exact sound
  · exact mirrors.sound_raise sound _

theorem Mirrors.conclude {shadow execution : Traced Execution}
    (shadows : access.Shadows Sound shadow execution) :
    (do
      let executed ← shadow >>= Execution.conclude
      pure (access.retire executed)) = (do
      let executed ← execution >>= Execution.conclude
      pure executed.retire) := by
  cases shadows with
  | same execution sound =>
    apply Traced.bind_congr
    have concluded := mirrors.sound_settled sound
    rw [← Execution.value_conclude] at concluded
    exact congrArg pure (mirrors.retire concluded)
  | dropped events core value sound =>
    apply Traced.ext
    · exact mirrors.retire_dropped sound value
    · rfl

theorem Mirrors.sound_concluded {shadow execution : Traced Execution}
    (shadows : access.Shadows Sound shadow execution) :
    Sound execution.value.settled.retire.registers := by
  cases shadows with
  | same execution sound => exact mirrors.sound_clearZero (mirrors.sound_settled sound)
  | dropped events core value sound =>
    change Sound (core.registers.set .zero value).clearZero
    rw [RegisterFile.clearZero_set_zero]
    exact mirrors.sound_clearZero sound

theorem Mirrors.step (sound : Sound core.registers) : access.step core = core.step := by
  unfold RegisterAccess.step Core.step
  split
  · rfl
  · apply Traced.bind_congr
    exact mirrors.conclude (mirrors.executeWord (mirrors.sound_fetch sound) _)

theorem Mirrors.sound_step (sound : Sound core.registers) : Sound core.step.value.registers := by
  cases halted : core.halted with
  | true =>
    rw [Core.step_of_halted halted]
    exact sound
  | false =>
    rw [Core.step_of_running halted]
    exact mirrors.sound_concluded (mirrors.executeWord (mirrors.sound_fetch sound) _)

theorem Mirrors.steps (sound : Sound core.registers) (count : Nat) :
    access.steps core count = core.steps count := by
  induction count generalizing core with
  | zero => rfl
  | succ count ih =>
    rw [RegisterAccess.steps, Core.steps_succ, mirrors.step sound]
    apply Traced.bind_congr
    exact ih (mirrors.sound_step sound)

end Simulation

end RegisterAccess

end RiscBoard
