import RiscBoard.Proofs.Core.Pristine
import RiscBoard.Proofs.Registers.Mirroring

/-!
Register 0 is zero. A cycle may store a value in it and clears it only at its end, but a core whose
registers drop such writes at once cannot be told from this one, and no read in between finds
anything but zero.
-/

namespace RiscBoard

def RegisterFile.Grounded (file : RegisterFile) : Prop := file.get .zero = 0

namespace RegisterFile.Grounded

theorem clearZero {file : RegisterFile} (grounded : file.Grounded) : file.clearZero = file := by
  apply ext_get
  intro register
  rw [RegisterFile.clearZero, get_set]
  split
  · next found =>
    rw [← found]
    exact grounded.symm
  · rfl

theorem set {file : RegisterFile} {register : Register} (grounded : file.Grounded)
    (value : UInt32) (other : register ≠ .zero) : (file.set register value).Grounded :=
  (get_set_of_ne file value other).trans grounded

theorem setPc {file : RegisterFile} (grounded : file.Grounded) (address : UInt32) :
    (file.setPc address).Grounded :=
  grounded.set address (by decide)

end RegisterFile.Grounded

namespace RegisterAccess

def stored : RegisterAccess where
  read file register := pure (file.get register)
  write := RegisterFile.set
  settle := RegisterFile.clearZero

/-- A write of register 0 is dropped at once, so that nothing has to be cleared. -/
def hardwired : RegisterAccess where
  read file register := pure (file.get register)
  write file register value := if register = .zero then file else file.set register value
  settle file := file

/-- The access of the core with a watch on register 0. A read that finds a value other than zero
there gives something else instead, and may cause events. -/
def watched (surprise : UInt32 → Traced UInt32) : RegisterAccess :=
  { stored with
    read := fun file register =>
      if register = .zero ∧ file.get .zero ≠ 0 then surprise (file.get .zero)
      else pure (file.get register) }

theorem stored_mirrors : stored.Mirrors fun _ => True where
  read _ _ := rfl
  write _ _ _ := rfl
  settle _ := rfl
  settle_write {file} value _ := file.clearZero_set_zero value
  sound_set _ _ _ := trivial
  sound_clearZero _ := trivial

theorem hardwired_mirrors : hardwired.Mirrors RegisterFile.Grounded where
  read _ _ := rfl
  write _ _ other := if_neg other
  settle grounded := grounded.clearZero.symm
  settle_write _ grounded := grounded.clearZero.symm
  sound_set value grounded other := grounded.set value other
  sound_clearZero grounded := by rwa [grounded.clearZero]

theorem watched_mirrors (surprise : UInt32 → Traced UInt32) :
    (watched surprise).Mirrors RegisterFile.Grounded where
  read _ grounded := if_neg fun found => found.2 grounded
  write _ _ _ := rfl
  settle _ := rfl
  settle_write {file} value _ := file.clearZero_set_zero value
  sound_set value grounded other := grounded.set value other
  sound_clearZero grounded := by rwa [grounded.clearZero]

end RegisterAccess

def CoreOperation.changesRegisters : CoreOperation → Bool
  | .changeRegisters _ => true
  | _ => false

namespace Core

/-- The states that a core gets into from a reset by cycles and by what its host does, as long as
the host does not change the registers at will. -/
inductive Reached : Core → Prop where
  | reset (core : Core) : Reached core.reset
  | cycle {core : Core} (reached : Reached core) : Reached core.step.value
  | operation {core : Core} (reached : Reached core) (operation : CoreOperation)
      (keeps : operation.changesRegisters = false) : Reached (core.operate operation).value

theorem grounded_raise {core : Core} (grounded : core.registers.Grounded) (exception : Exception) :
    (core.raise exception).value.registers.Grounded := by
  rw [value_raise]
  exact grounded.setPc core.trap.handler

theorem grounded_reset (core : Core) : core.reset.registers.Grounded :=
  RegisterFile.Grounded.setPc (RegisterFile.get_cleared .zero) core.resetVector

theorem grounded_operate {core : Core} (grounded : core.registers.Grounded)
    {operation : CoreOperation} (keeps : operation.changesRegisters = false) :
    (core.operate operation).value.registers.Grounded := by
  cases operation with
  | changeRegisters change => cases keeps
  | readVirtual address size =>
    simp only [operate, readVirtual]
    split
    · exact grounded_raise grounded _
    · exact grounded
  | writeVirtual address value size =>
    simp only [operate, writeVirtual]
    split
    · exact grounded_raise grounded _
    · exact grounded
  | writeCop cop cell value =>
    simp only [operate, writeCop]
    cases CopRegister.resolve cop cell with
    | error _ => exact grounded
    | ok register =>
      change (core.setCell register value).registers.Grounded
      rw [setCell_eq]
      exact grounded
  | setPrivilege level =>
    simp only [operate, value_setPrivilege]
    exact grounded
  | raise exception => exact grounded_raise grounded exception
  | setPc address => exact grounded.setPc address
  | reset => exact core.grounded_reset
  | _ => exact grounded

theorem Reached.grounded {core : Core} (reached : core.Reached) : core.registers.Grounded := by
  induction reached with
  | reset core => exact core.grounded_reset
  | cycle reached ih => exact RegisterAccess.hardwired_mirrors.sound_step ih
  | operation reached operation keeps ih => exact grounded_operate ih keeps

/-- Register 0 is as good as wired to zero. The core is the machine whose registers store every
value, clearing register 0 at the end of each cycle. From a state where that is zero it goes through
the same states, with the same events, as the machine that drops writes of register 0 at once, and
as one that would show every read of another value there. The register is zero in all states that
the core gets into from a reset. -/
theorem zero_hardwired :
    (∀ (core : Core) (count : Nat), RegisterAccess.stored.steps core count = core.steps count) ∧
    (∀ core : Core, core.registers.get .zero = 0 → ∀ count : Nat,
      RegisterAccess.hardwired.steps core count = core.steps count ∧
        ∀ surprise : UInt32 → Traced UInt32,
          (RegisterAccess.watched surprise).steps core count = core.steps count) ∧
    ∀ core : Core, core.Reached → core.registers.get .zero = 0 := by
  refine ⟨?_, ?_, ?_⟩
  · intro core count
    exact RegisterAccess.stored_mirrors.steps trivial count
  · intro core grounded count
    exact ⟨RegisterAccess.hardwired_mirrors.steps grounded count,
      fun surprise => (RegisterAccess.watched_mirrors surprise).steps grounded count⟩
  · intro core reached
    exact reached.grounded

def overwriting : Core := { create 0 .empty with pipeline := ⟨0x00400000, 0x88000140, 0⟩ }

theorem overwriting_hardwired :
    overwriting.execution.core.registers.get .zero = 5 ∧
      RegisterAccess.hardwired.steps overwriting 4 = overwriting.steps 4 ∧
      (RegisterAccess.watched fun value => ⟨value, [.output [value.toUInt8]]⟩).steps overwriting 4 =
        overwriting.steps 4 ∧
      (overwriting.reset.operate (.setPc 0x80)).value.step.value.registers.get .zero = 0 := by
  obtain ⟨same, watches⟩ := zero_hardwired.2.1 overwriting (by decide +kernel) 4
  have moved : (overwriting.reset.operate (.setPc 0x80)).value.step.value.Reached :=
    .cycle (.operation (.reset overwriting) (.setPc 0x80) rfl)
  exact ⟨by decide +kernel, same, watches _, zero_hardwired.2.2 _ moved⟩

end Core

end RiscBoard
