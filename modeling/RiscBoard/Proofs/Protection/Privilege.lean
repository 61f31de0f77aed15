import RiscBoard.Proofs.Core.Atomicity
import RiscBoard.Proofs.Core.Cells
import RiscBoard.Proofs.Core.VirtualMemory

/-!
Privilege over runs. Each exception moves the core one level toward level 0 and nothing else moves it,
so that a run that starts at level 0 stays there. There no exception touches virtual memory either: it
changes by moves to coprocessor 4 alone, one word of the active table at a time.
-/

namespace RiscBoard

/-- The cells of coprocessor 4 are the control word, and after it the words of the active table. -/
theorem CopRegister.resolve_four {cell : UInt16} {register : CopRegister}
    (resolved : resolve 4 cell = .ok register) :
    (cell = 0 ∧ register = .mmuControl) ∨
      ∃ slot field, register = .mapWord slot field ∧
        cell.toNat = 4 * slot.val + field.code + 1 := by
  have numbers := numbers_of_resolve resolved
  cases register with
  | mmuControl => exact .inl ⟨UInt16.toNat_inj.1 (congrArg Prod.snd numbers).symm, rfl⟩
  | mapWord slot field => exact .inr ⟨slot, field, rfl, (congrArg Prod.snd numbers).symm⟩
  | control0 | control1 | cause | handler | exceptionPc => cases congrArg Prod.fst numbers

namespace Core

/-- The exceptions that a cycle takes, in order: that of its fetch and that of its executed word. -/
def exceptions (core : Core) : List Exception :=
  if core.halted then [] else core.fetchFault?.toList ++ core.execution.fault.toList

def exceptionsWithin (core : Core) (count : Nat) : List Exception :=
  (List.range count).flatMap fun cycle => (core.after cycle).exceptions

section Levels

variable (core : Core)

theorem index_fetch :
    core.fetch.value.privilege.index.val =
      core.privilege.index.val - core.fetchFault?.toList.length := by
  cases translated : core.mmu.translate core.pc .exec .execute with
  | error fault =>
    rw [value_fetch_of_fault translated, value_raise, (core.fetchFault?_eq_some_iff fault).2 translated]
    exact core.privilege.index_raised
  | ok physical =>
    rw [value_fetch_of_ok translated, core.fetchFault?_eq_none_iff.2 ⟨physical, translated⟩]
    rfl

theorem index_settled (word : UInt32) :
    (core.executeWord word).value.settled.privilege.index.val =
      core.privilege.index.val - (core.executeWord word).value.fault.toList.length := by
  cases ends : (core.executeWord word).value.fault with
  | none =>
    rw [Execution.settled, ends, privilege_of_completes core ends]
    rfl
  | some fault =>
    obtain ⟨host, _, same⟩ := (executeWord_refuses core word ends).value_eq
    rw [same, Execution.settled_faulted, value_raise]
    exact core.privilege.index_raised

/-- Each exception of a cycle moves the core one level up, as far as there are levels. -/
theorem index_step :
    core.step.value.privilege.index.val =
      core.privilege.index.val - core.exceptions.length := by
  unfold exceptions
  cases halted : core.halted with
  | true =>
    rw [step_of_halted halted]
    rfl
  | false =>
    rw [step_of_running halted, if_neg Bool.false_ne_true, List.length_append, Nat.sub_add_eq,
      ← index_fetch]
    exact index_settled core.fetch.value core.executing

theorem exceptionsWithin_succ (count : Nat) :
    core.exceptionsWithin (count + 1) =
      core.exceptionsWithin count ++ (core.after count).exceptions := by
  simp only [exceptionsWithin, List.range_succ, List.flatMap_append, List.flatMap_singleton]

theorem index_after (count : Nat) :
    (core.after count).privilege.index.val =
      core.privilege.index.val - (core.exceptionsWithin count).length := by
  induction count with
  | zero => rfl
  | succ count ih =>
    rw [after_succ_last, index_step, ih, exceptionsWithin_succ, List.length_append, Nat.sub_add_eq]

end Levels

theorem eq_level0_of_index {level : PrivilegeLevel} (lowest : level.index.val = 0) :
    level = .level0 := by
  cases level with
  | level0 => rfl
  | level1 | level2 | level3 => cases lowest

section Level0

variable {core : Core}

theorem after_level0 (top : core.privilege = .level0) (count : Nat) :
    (core.after count).privilege = .level0 := by
  apply eq_level0_of_index
  rw [index_after, top]
  exact Nat.zero_sub _

/-- A word changes virtual memory by a move to one of its cells, or not at all. -/
theorem mmu_settled (top : core.privilege = .level0) (word : UInt32) :
    (core.executeWord word).value.settled.mmu = core.mmu ∨
      ∃ source cell register, Instruction.decode word = .ok (.moveToCop source 4 cell) ∧
        CopRegister.resolve 4 cell = .ok register ∧
        (core.executeWord word).value.settled.mmu =
          (core.setCell register (core.registers.get source)).mmu := by
  have steady : core.Steady := .inl top
  cases moved : Mmu.movedToBy word with
  | false => exact .inl (steady.executeWord moved).same
  | true =>
    unfold Mmu.movedToBy at moved
    split at moved
    next instruction decoded =>
      rw [executeWord_of_decode core decoded]
      cases instruction with
      | moveToCop source cop cell =>
        have four : cop = 4 := beq_iff_eq.1 moved
        subst four
        simp only [execute, writeCop]
        cases resolved : CopRegister.resolve 4 cell with
        | error _ => exact .inl (steady.raise .invalidCopAccess).same
        | ok register => exact .inr ⟨source, cell, register, decoded, resolved, rfl⟩
      | _ => cases moved
    next => cases moved

theorem mmu_step (top : core.privilege = .level0) :
    core.step.value.mmu = core.mmu ∨
      ∃ word source cell register, core.executedWord? = some word ∧
        Instruction.decode word = .ok (.moveToCop source 4 cell) ∧
        CopRegister.resolve 4 cell = .ok register ∧
        core.step.value.mmu =
          (core.setCell register (core.fetch.value.registers.get source)).mmu := by
  cases halted : core.halted with
  | true => exact .inl (by rw [step_of_halted halted])
  | false =>
    have steady : core.Steady := .inl top
    have sameMmu := steady.fetch.same
    have stillTop : core.fetch.value.privilege = .level0 := by
      apply eq_level0_of_index
      rw [index_fetch, top]
      exact Nat.zero_sub _
    rw [step_of_running halted]
    rcases mmu_settled stillTop core.executing with
      same | ⟨source, cell, register, decoded, resolved, moves⟩
    · exact .inl (same.trans sameMmu)
    · refine .inr ⟨core.executing, source, cell, register, ?_, decoded, resolved, ?_⟩
      · rw [executedWord?, halted]
        rfl
      · refine moves.trans ?_
        cases register with
        | mapWord slot field => rw [setCell, setCell, sameMmu]
        | mmuControl => rw [setCell, setCell, sameMmu]
        | _ => exact sameMmu

end Level0

def MovesToMmu (core : Core) (source : Register) (cell : UInt16) : Prop :=
  ∃ word, core.executedWord? = some word ∧
    Instruction.decode word = .ok (.moveToCop source 4 cell)

/-- A cycle changes virtual memory by moves only: the control word by one to cell 0, and a table by one
to a cell after it. Then the table is the active one, and one word of one of its entries is replaced. -/
structure ChangesMmuByMoves (core : Core) : Prop where
  control : core.step.value.mmu.control ≠ core.mmu.control → ∃ source, core.MovesToMmu source 0
  table : ∀ index, core.step.value.mmu.table index ≠ core.mmu.table index →
    index = core.mmu.control.activeTable ∧
      ∃ source cell slot field, core.MovesToMmu source cell ∧ 1 ≤ cell.toNat ∧ cell.toNat ≤ 128 ∧
        cell.toNat = 4 * slot.val + field.code + 1 ∧
        core.step.value.mmu.table index = (core.mmu.table index).set slot
          (((core.mmu.table index).get slot).setWord field (core.fetch.value.registers.get source))

theorem changesMmuByMoves {core : Core} (top : core.privilege = .level0) :
    core.ChangesMmuByMoves := by
  rcases mmu_step top with same | ⟨word, source, cell, register, executed, decoded, resolved, moves⟩
  · constructor
    · intro changed
      exact absurd (congrArg Mmu.control same) changed
    · intro index changed
      exact absurd (congrArg (Mmu.table · index) same) changed
  · have moved : core.MovesToMmu source cell := ⟨word, executed, decoded⟩
    rcases CopRegister.resolve_four resolved with ⟨rfl, rfl⟩ | ⟨slot, field, rfl, place⟩
    · constructor
      · exact fun _ => ⟨source, moved⟩
      · intro index changed
        exact absurd (congrArg (Mmu.table · index) moves) changed
    · have inSlot := slot.isLt
      have inEntry := field.code_lt
      constructor
      · intro changed
        exact absurd (congrArg Mmu.control moves) changed
      · intro index changed
        rw [moves] at changed ⊢
        simp only [setCell, Mmu.setActiveTable, Mmu.table_setTable] at changed ⊢
        by_cases active : core.mmu.control.activeTable = index
        · subst active
          refine ⟨rfl, source, cell, slot, field, moved, by omega, by omega, place, ?_⟩
          rw [if_pos rfl]
          rfl
        · rw [if_neg active] at changed
          exact absurd rfl changed

/-- The level never falls in privilege, and a cycle moves it by the exceptions that it takes, each by
one level up to level 0. So a core that only runs after a reset stays at level 0, where virtual memory
changes by moves only. -/
theorem privilege_only_rises (core : Core) :
    (∀ first later, first ≤ later →
      (core.after later).privilege.index ≤ (core.after first).privilege.index) ∧
    (∀ count, (core.after (count + 1)).privilege.index.val =
      (core.after count).privilege.index.val - (core.after count).exceptions.length) ∧
    ∀ count, (core.reset.after count).privilege = .level0 ∧
      (core.reset.after count).ChangesMmuByMoves := by
  refine ⟨?_, ?_, ?_⟩
  · intro first later ordered
    obtain ⟨more, rfl⟩ := Nat.exists_eq_add_of_le ordered
    rw [after_add, Fin.le_def, index_after]
    exact Nat.sub_le _ _
  · intro count
    rw [after_succ_last, index_step]
  · intro count
    have top : (core.reset.after count).privilege = .level0 := after_level0 rfl count
    exact ⟨top, changesMmuByMoves top⟩

def remapping : Core :=
  let code := Bytes.ofWords [0x884001c0, 0x70403400, 0x7e000000]
  { create 0 (.ofImage code) with privilege := .level1 }

/-- The exception leads to level 0. After a reset the move replaces the third word of table 0. -/
theorem remapping_rises :
    (remapping.after 5).privilege.index ≤ (remapping.after 4).privilege.index ∧
      (remapping.after 5).privilege.index.val =
        (remapping.after 4).privilege.index.val - [Exception.softwareException 0].length ∧
      0 = (remapping.reset.after 3).mmu.control.activeTable ∧
        ∃ source cell, (remapping.reset.after 3).MovesToMmu source cell := by
  obtain ⟨falls, exact, fromReset⟩ := privilege_only_rises remapping
  have taken : (remapping.after 4).exceptions = [.softwareException 0] := by decide +kernel
  have changed : (remapping.reset.after 3).step.value.mmu.table 0 ≠
      (remapping.reset.after 3).mmu.table 0 := by decide +kernel
  obtain ⟨active, source, cell, _, _, moved, _⟩ := (fromReset 3).2.table 0 changed
  refine ⟨falls 4 5 (by decide), ?_, active, source, cell, moved⟩
  rw [← taken]
  exact exact 4

end Core

end RiscBoard
