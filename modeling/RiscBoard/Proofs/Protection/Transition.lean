import RiscBoard.Proofs.Core.Values
import RiscBoard.Proofs.Instruction.Layout
import RiscBoard.Proofs.Mmu.Translation

/-!
Virtual memory at a change of the privilege level. Each policy of the control word names the bits that
it edits, and no other bit changes (`EditedFor`). Under the remap policy the active table is that of
the level after every change, so that addresses go through the table of the level
(`transition_edits_named_bits`).
-/

namespace RiscBoard

namespace MmuControl

open Word

/-- The control word after a move to a level: bit 10 has the level's number put into bits 13 and 12,
bit 9 has bit 0 cleared at level 0, and bit 8 has it set at level 1. -/
structure EditedFor (level : PrivilegeLevel) (word edited : UInt32) : Prop where
  table : field edited 12 2 = if bit word 10 then level.index.val else field word 12 2
  enabled : bit edited 0 =
    if level = .level0 ∧ bit word 9 then false
    else if level = .level1 ∧ bit word 8 then true
    else bit word 0
  others : ∀ position, position ≠ 0 → position ≠ 12 → position ≠ 13 →
    bit edited position = bit word position

theorem bit_setEnabled (control : MmuControl) (value : Bool) (position : Nat) :
    bit (control.setEnabled value).word position =
      if 0 = position then value else bit control.word position :=
  bit_setBit control.word value (by decide)

theorem bit_setActiveTable (control : MmuControl) (table : Fin 4) (position : Nat) :
    bit (control.setActiveTable table).word position =
      if 13 = position then table.val.testBit 1
      else if 12 = position then table.val.testBit 0
      else bit control.word position := by
  rw [setActiveTable, bit_setBit _ _ (by decide), bit_setBit _ _ (by decide)]

theorem field_setActiveTable (control : MmuControl) (table : Fin 4) :
    field (control.setActiveTable table).word 12 2 = table.val := by
  refine Nat.eq_of_testBit_eq fun position => ?_
  rw [testBit_field, bit_setActiveTable]
  match position with
  | 0 => rfl
  | 1 => rfl
  | position + 2 =>
    have short : table.val < 2 ^ (position + 2) :=
      Nat.lt_of_lt_of_le table.isLt (Nat.pow_le_pow_right Nat.two_pos (Nat.le_add_left 2 position))
    rw [Nat.testBit_lt_two_pow short, decide_eq_false (by omega), Bool.false_and]

theorem field_setEnabled (control : MmuControl) (value : Bool) :
    field (control.setEnabled value).word 12 2 = field control.word 12 2 := by
  refine (field_eq_field_iff ..).2 fun position above _ => ?_
  rw [bit_setEnabled, if_neg (by omega)]

def remapped (control : MmuControl) (level : PrivilegeLevel) : MmuControl :=
  if control.remapOnTransition then control.setActiveTable level.index else control

theorem field_remapped (control : MmuControl) (level : PrivilegeLevel) :
    field (control.remapped level).word 12 2 =
      if bit control.word 10 then level.index.val else field control.word 12 2 := by
  unfold remapped remapOnTransition
  split
  · exact field_setActiveTable control level.index
  · rfl

theorem bit_remapped (control : MmuControl) (level : PrivilegeLevel) {position : Nat}
    (low : position ≠ 12) (high : position ≠ 13) :
    bit (control.remapped level).word position = bit control.word position := by
  unfold remapped
  split
  · rw [bit_setActiveTable, if_neg high.symm, if_neg low.symm]
  · rfl

/-- A control word whose bit 0 no policy edits is as the remapping leaves it. -/
theorem editedFor_remapped {control : MmuControl} {level : PrivilegeLevel}
    (off : ¬ (level = .level0 ∧ bit control.word 9)) (on : ¬ (level = .level1 ∧ bit control.word 8)) :
    EditedFor level control.word (control.remapped level).word where
  table := control.field_remapped level
  enabled := by rw [if_neg off, if_neg on, control.bit_remapped level (by decide) (by decide)]
  others _ _ low high := control.bit_remapped level low high

theorem editedFor_switched {control : MmuControl} {level : PrivilegeLevel} {value : Bool}
    (switched : (if level = .level0 ∧ bit control.word 9 then false
      else if level = .level1 ∧ bit control.word 8 then true else bit control.word 0) = value) :
    EditedFor level control.word ((control.remapped level).setEnabled value).word where
  table := by rw [field_setEnabled, field_remapped]
  enabled := by rw [bit_setEnabled, if_pos rfl, switched]
  others position first low high := by
    rw [bit_setEnabled, if_neg first.symm, control.bit_remapped level low high]

/-- The remapping leaves the policies that come after it, so that they act as in the old word. -/
theorem editedFor_transition (control : MmuControl) (level : PrivilegeLevel) :
    EditedFor level control.word (Core.transitionControl control level).word := by
  have disable : (control.remapped level).disableOnLevel0 = bit control.word 9 :=
    control.bit_remapped level (by decide) (by decide)
  have enable : (control.remapped level).enableOnLevel1 = bit control.word 8 :=
    control.bit_remapped level (by decide) (by decide)
  cases level with
  | level0 =>
    change EditedFor .level0 control.word (ite ((control.remapped .level0).disableOnLevel0 = true)
      ((control.remapped .level0).setEnabled false) (control.remapped .level0)).word
    rw [disable]
    split
    next policy => exact editedFor_switched (if_pos ⟨rfl, policy⟩)
    next none => exact editedFor_remapped (fun both => none both.2) nofun
  | level1 =>
    change EditedFor .level1 control.word (ite ((control.remapped .level1).enableOnLevel1 = true)
      ((control.remapped .level1).setEnabled true) (control.remapped .level1)).word
    rw [enable]
    split
    next policy => exact editedFor_switched (by rw [if_neg nofun, if_pos ⟨rfl, policy⟩])
    next none => exact editedFor_remapped nofun fun both => none both.2
  | level2 => exact editedFor_remapped nofun nofun
  | level3 => exact editedFor_remapped nofun nofun

end MmuControl

namespace Core

inductive LevelChange where
  | taken (exception : Exception)
  | moved (level : PrivilegeLevel)

def changeLevel (core : Core) : LevelChange → Traced Core
  | .taken exception => core.raise exception
  | .moved level => core.setPrivilege level

def changeLevels (core : Core) (changes : List LevelChange) : Traced Core :=
  changes.foldlM changeLevel core

structure FollowsLevel (core : Core) : Prop where
  remaps : core.mmu.control.remapOnTransition = true
  active : core.mmu.control.activeTable = core.privilege.index

/-- Addresses go through the table of the level: its first entry that has an address decides, and the
other tables say nothing. -/
structure TranslatesByLevel (core : Core) : Prop where
  active : core.mmu.control.activeTable = core.privilege.index
  table : core.mmu.activeTable = core.mmu.table core.privilege.index
  decided : core.mmu.control.enabled = true → ∀ address size kind,
    core.mmu.ByFirstMatch address size kind
  others : ∀ other : Mmu, other.control = core.mmu.control →
    other.table core.privilege.index = core.mmu.table core.privilege.index →
    ∀ address size kind, other.translate address size kind = core.mmu.translate address size kind

/-- A change of level under the remap policy selects the table of the new level, and keeps the policy. -/
theorem followsLevel_transition {core : Core} (follows : core.FollowsLevel) (level : PrivilegeLevel)
    {later : Core} (mmu : later.mmu = core.mmuAt level) (privilege : later.privilege = level) :
    later.FollowsLevel := by
  unfold mmuAt at mmu
  split at mmu
  next same =>
    refine ⟨?_, ?_⟩
    · rw [mmu]
      exact follows.remaps
    · rw [mmu, privilege, same]
      exact follows.active
  next changes =>
    have edited := MmuControl.editedFor_transition core.mmu.control level
    refine ⟨?_, ?_⟩
    · rw [mmu]
      exact (edited.others 10 (by decide) (by decide) (by decide)).trans follows.remaps
    · rw [mmu, privilege]
      exact Fin.ext (edited.table.trans (if_pos follows.remaps))

theorem FollowsLevel.changeLevel {core : Core} (follows : core.FollowsLevel) (change : LevelChange) :
    (core.changeLevel change).value.FollowsLevel := by
  cases change with
  | taken exception =>
    have raised := core.value_raise exception
    exact followsLevel_transition follows core.privilege.raised (congrArg (·.mmu) raised)
      (congrArg (·.privilege) raised)
  | moved level =>
    have moved := core.value_setPrivilege level
    exact followsLevel_transition follows level (congrArg (·.mmu) moved)
      (congrArg (·.privilege) moved)

theorem FollowsLevel.changeLevels {core : Core} (follows : core.FollowsLevel)
    (changes : List LevelChange) : (core.changeLevels changes).value.FollowsLevel := by
  induction changes generalizing core with
  | nil => exact follows
  | cons change later ih =>
    rw [Core.changeLevels, List.foldlM_cons, Traced.value_bind]
    exact ih (follows.changeLevel change)

theorem FollowsLevel.translates {core : Core} (follows : core.FollowsLevel) :
    core.TranslatesByLevel := by
  have table : core.mmu.activeTable = core.mmu.table core.privilege.index := by
    rw [Mmu.activeTable, follows.active]
  refine ⟨follows.active, table, fun enabled => Mmu.byFirstMatch enabled, ?_⟩
  intro other control same address size kind
  have active : other.activeTable = core.mmu.activeTable := by
    rw [Mmu.activeTable, control, follows.active, same, table]
  simp only [Mmu.translate, Mmu.mapped, Mmu.alignmentFault?, control, active]

/-- A move to another level edits the control word of virtual memory as its policies say and leaves
everything else; a move to the same level leaves everything. An exception is a move to the next level.
So where the active table is that of the level, under the remap policy, it is that after any exceptions
and moves, and addresses always go through the table of the current level. -/
theorem transition_edits_named_bits (core : Core) :
    core.setPrivilege core.privilege = pure core ∧
    (∀ level, level ≠ core.privilege →
      ∃ edited, MmuControl.EditedFor level core.mmu.control.word edited ∧
        (core.setPrivilege level).value =
          { core with privilege := level, mmu := ⟨⟨edited⟩, core.mmu.tables⟩ }) ∧
    (∀ exception, (core.raise exception).value.mmu =
      (core.setPrivilege core.privilege.raised).value.mmu) ∧
    (core.mmu.control.remapOnTransition = true →
      core.mmu.control.activeTable = core.privilege.index →
      ∀ changes, (core.changeLevels changes).value.TranslatesByLevel) := by
  refine ⟨if_pos rfl, ?_, ?_, ?_⟩
  · intro level changes
    refine ⟨_, MmuControl.editedFor_transition core.mmu.control level, ?_⟩
    rw [value_setPrivilege, mmuAt, if_neg changes]
  · intro exception
    rw [value_raise, value_setPrivilege]
  · intro remaps active changes
    have follows : core.FollowsLevel := ⟨remaps, active⟩
    exact (follows.changeLevels changes).translates

def descending : Core :=
  { create 0 .empty with
    privilege := .level3
    mmu := { Mmu.cleared with control := ⟨0xffffffff⟩ }.setTable PrivilegeLevel.level1.index
      (.ofList [⟨0x100, 0, 0x40, 4⟩]) }

/-- On its way to level 0 the core sees the mapping at level 1, and in the end bits 13, 12 and 0 are
clear. -/
theorem descending_edits_named_bits :
    descending.mmu.control.remapOnTransition = true ∧
      descending.mmu.control.activeTable = descending.privilege.index ∧
      (∃ edited, MmuControl.EditedFor .level1 0xffffffff edited ∧ edited = 0xffffdfff) ∧
      (let core := (descending.changeLevels [.taken .arithmetic, .taken (.syscall 1)]).value
       core.TranslatesByLevel ∧ (core.mmu.translate 0x3f .byte .read).toOption = some 0x13f) ∧
      (let core := (descending.changeLevels
         [.taken .arithmetic, .moved .level1, .moved .level1, .taken .noMapping]).value
       core.TranslatesByLevel ∧ core.mmu.control.word = 0xffffcffe) := by
  obtain ⟨-, edits, -, follows⟩ := transition_edits_named_bits descending
  have remaps : descending.mmu.control.remapOnTransition = true := by decide
  have active : descending.mmu.control.activeTable = descending.privilege.index := by decide
  refine ⟨remaps, active, ?_, ⟨follows remaps active _, by decide +kernel⟩,
    ⟨follows remaps active _, by decide +kernel⟩⟩
  obtain ⟨edited, bits, moved⟩ := edits .level1 (by decide)
  refine ⟨edited, bits, ?_⟩
  have word := congrArg (·.mmu.control.word) moved
  exact word.symm.trans (by decide +kernel)

end Core

end RiscBoard
