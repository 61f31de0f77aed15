import RiscBoard.Proofs.Core.Pristine
import RiscBoard.Proofs.Mmu.Insertion

/-!
Coprocessor cells as independent storage. The pairs of numbers that address a cell are those of the two
coprocessors' registers, and no two pairs address the same one (`resolve_inj`). What is written to
a cell is read there again and shows nowhere else, except that the control word of virtual memory selects
the table whose words are shown. A table that is not selected keeps all its words, whatever is
written (`cells_independent`).
-/

namespace RiscBoard

namespace CopRegister

def Addressed (cop : UInt8) (cell : UInt16) : Prop :=
  (cop = 0 ∧ cell ≤ 4) ∨ (cop = 4 ∧ cell ≤ 128)

instance (cop : UInt8) (cell : UInt16) : Decidable (Addressed cop cell) :=
  inferInstanceAs (Decidable (_ ∨ _))

def numbers : CopRegister → Nat × Nat
  | .control0 => (0, 0)
  | .control1 => (0, 1)
  | .cause => (0, 2)
  | .handler => (0, 3)
  | .exceptionPc => (0, 4)
  | .mmuControl => (4, 0)
  | .mapWord slot field => (4, 4 * slot.val + field.code + 1)

section Resolve

variable {cop : UInt8} {cell : UInt16} {register : CopRegister}

theorem numbers_of_resolve (resolved : resolve cop cell = .ok register) :
    register.numbers = (cop.toNat, cell.toNat) := by
  unfold resolve at resolved
  split at resolved
  iterate 6
    next copIs cellIs =>
      cases resolved
      rw [copIs, cellIs]
      rfl
  next index four place =>
    split at resolved
    next inside =>
      cases resolved
      rw [four, place, ofMapIndex, numbers, EntryField.code_ofCode]
      dsimp only
      rw [Nat.div_add_mod]
    next => cases resolved
  next => cases resolved

theorem resolve_inj {other : UInt8} {place : UInt16} (resolved : resolve cop cell = .ok register)
    (otherResolved : resolve other place = .ok register) : (other, place) = (cop, cell) := by
  obtain ⟨cops, cells⟩ :=
    Prod.mk.inj ((numbers_of_resolve otherResolved).symm.trans (numbers_of_resolve resolved))
  exact Prod.ext (UInt8.toNat_inj.1 cops) (UInt16.toNat_inj.1 cells)

theorem resolve_of_numbers (same : register.numbers = (cop.toNat, cell.toNat)) :
    resolve cop cell = .ok register := by
  obtain ⟨copIs, cellIs⟩ := Prod.mk.inj same
  unfold resolve
  rw [← copIs, ← cellIs]
  cases register with
  | mapWord slot field =>
    have inEntry := field.code_lt
    have inside : 4 * slot.val + field.code < 128 := by omega
    simp only [inside, ↓reduceDIte, ofMapIndex]
    congr 2
    · exact Fin.ext (by dsimp only; omega)
    · have code : (4 * slot.val + field.code) % 4 = field.code := by omega
      simp only [code]
      cases field with
      | physicalBase | virtualBase | size | attributes => rfl
  | _ => rfl

theorem addressed_of_resolve (resolved : resolve cop cell = .ok register) :
    Addressed cop cell := by
  obtain ⟨copIs, cellIs⟩ := Prod.mk.inj (numbers_of_resolve resolved)
  cases register with
  | mapWord slot field =>
    have inEntry := field.code_lt
    exact .inr ⟨UInt8.toNat_inj.1 copIs.symm, UInt16.le_iff_toNat_le.2 (by
      rw [← cellIs]
      change 4 * slot.val + field.code + 1 ≤ 128
      omega)⟩
  | mmuControl =>
    exact .inr ⟨UInt8.toNat_inj.1 copIs.symm, UInt16.le_iff_toNat_le.2 (cellIs ▸ Nat.zero_le 128)⟩
  | _ =>
    exact .inl ⟨UInt8.toNat_inj.1 copIs.symm, UInt16.le_iff_toNat_le.2 (cellIs ▸ by decide)⟩

theorem exists_resolve (addressed : Addressed cop cell) : ∃ register, resolve cop cell = .ok register := by
  rcases addressed with ⟨rfl, inside⟩ | ⟨rfl, inside⟩
  · have few : cell.toNat ≤ 4 := UInt16.le_iff_toNat_le.1 inside
    match place : cell.toNat, few with
    | 0, _ => exact ⟨.control0, resolve_of_numbers (by rw [place]; rfl)⟩
    | 1, _ => exact ⟨.control1, resolve_of_numbers (by rw [place]; rfl)⟩
    | 2, _ => exact ⟨.cause, resolve_of_numbers (by rw [place]; rfl)⟩
    | 3, _ => exact ⟨.handler, resolve_of_numbers (by rw [place]; rfl)⟩
    | 4, _ => exact ⟨.exceptionPc, resolve_of_numbers (by rw [place]; rfl)⟩
  · have few : cell.toNat ≤ 128 := UInt16.le_iff_toNat_le.1 inside
    match place : cell.toNat, few with
    | 0, _ => exact ⟨.mmuControl, resolve_of_numbers (by rw [place]; rfl)⟩
    | index + 1, below =>
      refine ⟨ofMapIndex ⟨index, below⟩, ?_⟩
      simp only [resolve, place]
      exact dif_pos below

theorem resolve_of_unaddressed (nowhere : ¬ Addressed cop cell) :
    resolve cop cell = .error ⟨cop, cell⟩ := by
  cases result : resolve cop cell with
  | ok register => exact absurd (addressed_of_resolve result) nowhere
  | error invalid =>
    unfold resolve at result
    split at result
    iterate 6
      next => cases result
    next =>
      split at result
      next => cases result
      next => rw [← Except.error.inj result]
    next => rw [← Except.error.inj result]

end Resolve

/-- What is done with a cell is done if and only if the numbers address one. -/
theorem isOk_map_resolve_iff {α : Type} (cop : UInt8) (cell : UInt16) (access : CopRegister → α) :
    ((resolve cop cell).map access).isOk = true ↔ Addressed cop cell := by
  by_cases addressed : Addressed cop cell
  · obtain ⟨register, resolved⟩ := exists_resolve addressed
    rw [resolved]
    exact iff_of_true rfl addressed
  · rw [resolve_of_unaddressed addressed]
    exact iff_of_false Bool.false_ne_true addressed

end CopRegister

theorem MappingEntry.word_ofCode (entry : MappingEntry) (code : Fin 4) :
    entry.word (.ofCode code) =
      match code.val with
      | 0 => entry.physicalBase
      | 1 => entry.virtualBase
      | 2 => entry.size
      | _ => entry.attributes := by
  match code with
  | 0 | 1 | 2 | 3 => rfl

theorem MappingTable.slot_lt (index : Fin 128) : index.val / 4 < 32 := by
  omega

def MappingTable.shown (table : MappingTable) (index : Fin 128) : UInt32 :=
  let entry := table.get ⟨index.val / 4, slot_lt index⟩
  match index.val % 4 with
  | 0 => entry.physicalBase
  | 1 => entry.virtualBase
  | 2 => entry.size
  | _ => entry.attributes

structure CopWrite where
  cop : UInt8
  cell : UInt16
  value : UInt32

/-- The write makes this table the active one: it puts the table's number into bits 13 and 12 of the
control word of virtual memory. -/
def CopWrite.Selects (write : CopWrite) (table : Fin 4) : Prop :=
  write.cop = 4 ∧ write.cell = 0 ∧ Word.field write.value 12 2 = table.val

instance (write : CopWrite) (table : Fin 4) : Decidable (write.Selects table) :=
  inferInstanceAs (Decidable (_ ∧ _ ∧ _))

namespace Core

variable {core : Core} {cop : UInt8} {cell : UInt16} {register : CopRegister}

theorem readCop_of_resolve (core : Core) (resolved : CopRegister.resolve cop cell = .ok register) :
    core.readCop cop cell = .ok (core.cell register) := by
  rw [readCop, resolved]
  rfl

theorem writeCop_of_resolve (core : Core) (resolved : CopRegister.resolve cop cell = .ok register)
    (value : UInt32) : core.writeCop cop cell value = .ok (core.setCell register value) := by
  rw [writeCop, resolved]
  rfl

theorem isOk_readCop_iff (core : Core) (cop : UInt8) (cell : UInt16) :
    (core.readCop cop cell).isOk = true ↔ CopRegister.Addressed cop cell :=
  CopRegister.isOk_map_resolve_iff cop cell core.cell

theorem isOk_writeCop_iff (core : Core) (cop : UInt8) (cell : UInt16) (value : UInt32) :
    (core.writeCop cop cell value).isOk = true ↔ CopRegister.Addressed cop cell :=
  CopRegister.isOk_map_resolve_iff cop cell fun register => core.setCell register value

theorem cell_setCell_self (core : Core) (register : CopRegister) (value : UInt32) :
    (core.setCell register value).cell register = value := by
  cases register with
  | mapWord slot field =>
    simp only [setCell, Core.cell, Mmu.activeTable, Mmu.setActiveTable]
    change (((core.mmu.setTable _ _).table core.mmu.control.activeTable).get slot).word field = value
    rw [Mmu.table_setTable, if_pos rfl, MappingTable.get_set, if_pos rfl,
      MappingEntry.word_setWord, if_pos rfl]
  | _ => rfl

theorem cell_setCell_mapWord_of_ne (core : Core) {slot other : Fin 32} {field otherField : EntryField}
    (value : UInt32) (distinct : CopRegister.mapWord slot field ≠ .mapWord other otherField) :
    (core.setCell (.mapWord slot field) value).cell (.mapWord other otherField) =
      core.cell (.mapWord other otherField) := by
  simp only [setCell, Core.cell, Mmu.activeTable, Mmu.setActiveTable]
  change (((core.mmu.setTable _ _).table core.mmu.control.activeTable).get other).word otherField = _
  rw [Mmu.table_setTable, if_pos rfl, MappingTable.get_set]
  split
  next same =>
    have fields : field ≠ otherField := fun found => distinct (by rw [same, found])
    rw [MappingEntry.word_setWord, if_neg fields, same]
  next => rfl

theorem cell_setCell_of_independent (core : Core) {other : CopRegister} (value : UInt32)
    (distinct : register ≠ other)
    (shown : register = .mmuControl → ∀ slot field, other ≠ .mapWord slot field) :
    (core.setCell register value).cell other = core.cell other := by
  cases other with
  | mapWord slot field =>
    cases register with
    | mapWord => exact core.cell_setCell_mapWord_of_ne value distinct
    | mmuControl => exact absurd rfl (shown rfl slot field)
    | _ => rfl
  | _ => exact core.cell_setCell_of_ne value distinct nofun

/-- A write to a cell changes the active table at most. -/
theorem table_setCell_of_ne (core : Core) (register : CopRegister) (value : UInt32) {index : Fin 4}
    (inactive : index ≠ core.mmu.control.activeTable) :
    (core.setCell register value).mmu.table index = core.mmu.table index := by
  cases register with
  | mapWord slot field =>
    simp only [setCell, Mmu.setActiveTable]
    rw [Mmu.table_setTable, if_neg inactive.symm]
  | _ => rfl

/-- The cells after the control word of virtual memory show the active table. -/
theorem readCop_shown (core : Core) (index : Fin 128) :
    core.readCop 4 (UInt16.ofNat (index.val + 1)) = .ok (core.mmu.activeTable.shown index) := by
  have place : (UInt16.ofNat (index.val + 1)).toNat = index.val + 1 :=
    UInt16.toNat_ofNat_of_lt' (Nat.lt_of_le_of_lt index.isLt (by decide))
  have resolved : CopRegister.resolve 4 (UInt16.ofNat (index.val + 1)) =
      .ok (CopRegister.ofMapIndex index) := by
    simp only [CopRegister.resolve, place]
    exact dif_pos index.isLt
  rw [core.readCop_of_resolve resolved, CopRegister.ofMapIndex, Core.cell,
    MappingEntry.word_ofCode]
  rfl

def store (core : Core) (write : CopWrite) : Core :=
  (core.writeCop write.cop write.cell write.value).toOption.getD core

def storeAll (core : Core) (writes : List CopWrite) : Core :=
  writes.foldl store core

theorem store_of_resolve (core : Core) (write : CopWrite)
    (resolved : CopRegister.resolve write.cop write.cell = .ok register) :
    core.store write = core.setCell register write.value := by
  rw [store, core.writeCop_of_resolve resolved]
  rfl

theorem store_of_unaddressed (core : Core) (write : CopWrite)
    (nowhere : ¬ CopRegister.Addressed write.cop write.cell) : core.store write = core := by
  rw [store, writeCop, CopRegister.resolve_of_unaddressed nowhere]
  rfl

theorem mmuControl_setCell_of_ne (core : Core) (value : UInt32) (other : register ≠ .mmuControl) :
    (core.setCell register value).mmu.control = core.mmu.control := by
  cases register with
  | mmuControl => exact absurd rfl other
  | _ => rfl

/-- A table that is not the active one and keeps its words. -/
structure Aside (core : Core) (index : Fin 4) (table : MappingTable) : Prop where
  inactive : index ≠ core.mmu.control.activeTable
  kept : core.mmu.table index = table

theorem Aside.store {index : Fin 4} {table : MappingTable} (aside : core.Aside index table)
    {write : CopWrite} (unselected : ¬ write.Selects index) :
    (core.store write).Aside index table := by
  by_cases addressed : CopRegister.Addressed write.cop write.cell
  · obtain ⟨register, resolved⟩ := CopRegister.exists_resolve addressed
    rw [core.store_of_resolve write resolved]
    refine ⟨?_, (core.table_setCell_of_ne register write.value aside.inactive).trans aside.kept⟩
    by_cases control : register = .mmuControl
    · subst control
      obtain ⟨four, first⟩ := Prod.mk.inj (CopRegister.numbers_of_resolve resolved)
      intro active
      exact unselected ⟨UInt8.toNat_inj.1 four.symm, UInt16.toNat_inj.1 first.symm,
        (congrArg Fin.val active).symm⟩
    · rw [core.mmuControl_setCell_of_ne write.value control]
      exact aside.inactive
  · rw [core.store_of_unaddressed write addressed]
    exact aside

theorem Aside.storeAll {index : Fin 4} {table : MappingTable} (aside : core.Aside index table)
    {writes : List CopWrite} (unselected : ∀ write ∈ writes, ¬ write.Selects index) :
    (core.storeAll writes).Aside index table := by
  induction writes generalizing core with
  | nil => exact aside
  | cons write later ih =>
    exact ih (aside.store (unselected write List.mem_cons_self))
      fun other member => unselected other (List.mem_cons_of_mem write member)

theorem store_mmuControl (core : Core) (value : UInt32) :
    core.store ⟨4, 0, value⟩ = core.setCell .mmuControl value :=
  core.store_of_resolve ⟨4, 0, value⟩ (CopRegister.resolve_of_numbers rfl)

/-- What a write of a value to a cell leaves: the cell has the value, every other cell what it had,
and nothing but the two coprocessors changes. A write of the control word of virtual memory, which is
cell 0 of coprocessor 4, has the cells after it show the table that it selects. -/
structure Written (core : Core) (cop : UInt8) (cell : UInt16) (value : UInt32) (later : Core) :
    Prop where
  here : later.readCop cop cell = .ok value
  elsewhere : ∀ other place, (other, place) ≠ (cop, cell) →
    ¬ (cop = 4 ∧ cell = 0 ∧ other = 4 ∧ 1 ≤ place) →
    later.readCop other place = core.readCop other place
  shown : cop = 4 → cell = 0 → ∀ table : Fin 4, table.val = Word.field value 12 2 →
    ∀ index : Fin 128, later.readCop 4 (UInt16.ofNat (index.val + 1)) =
      .ok ((core.mmu.table table).shown index)
  tables : ∀ table, table ≠ core.mmu.control.activeTable →
    later.mmu.table table = core.mmu.table table
  rest : later = { core with control := later.control, trap := later.trap, mmu := later.mmu }

theorem written_of_resolve (core : Core) (resolved : CopRegister.resolve cop cell = .ok register)
    (value : UInt32) : core.Written cop cell value (core.setCell register value) where
  here := by rw [readCop_of_resolve _ resolved, cell_setCell_self]
  elsewhere other place distinct independent := by
    by_cases addressed : CopRegister.Addressed other place
    · obtain ⟨found, otherResolved⟩ := CopRegister.exists_resolve addressed
      rw [readCop_of_resolve _ otherResolved, readCop_of_resolve _ otherResolved,
        core.cell_setCell_of_independent value]
      · rintro rfl
        exact distinct (CopRegister.resolve_inj resolved otherResolved)
      · rintro rfl slot field rfl
        obtain ⟨four, first⟩ := Prod.mk.inj (CopRegister.numbers_of_resolve resolved)
        obtain ⟨otherFour, after⟩ := Prod.mk.inj (CopRegister.numbers_of_resolve otherResolved)
        refine independent ⟨UInt8.toNat_inj.1 four.symm, UInt16.toNat_inj.1 first.symm,
          UInt8.toNat_inj.1 otherFour.symm, UInt16.le_iff_toNat_le.2 ?_⟩
        rw [← after]
        exact Nat.le_add_left ..
    · rw [readCop, readCop, CopRegister.resolve_of_unaddressed addressed]
      rfl
  shown four first table selected index := by
    subst four first
    have control : register = .mmuControl :=
      Except.ok.inj (resolved.symm.trans (CopRegister.resolve_of_numbers rfl))
    subst control
    rw [readCop_shown]
    have active : (MmuControl.mk value).activeTable = table := Fin.ext selected.symm
    rw [← active]
    rfl
  tables _ inactive := core.table_setCell_of_ne register value inactive
  rest := core.setCell_eq register value

/-- Cells are independent. Exactly the numbers of the two coprocessors' registers address a cell, each
pair another one, for reads and for writes alike, and a refused write changes nothing. A write is read
back and shows in no other cell, the words of the selected table apart; these are the fields of its
entries in order. So a table is found again as it was when the program selects another one, writes
whatever cells it likes without selecting the first one, and then goes back. -/
theorem cells_independent (core : Core) :
    (∀ cop cell, ((core.readCop cop cell).isOk = true ↔ CopRegister.Addressed cop cell) ∧
      ∀ value, (core.writeCop cop cell value).isOk = true ↔ CopRegister.Addressed cop cell) ∧
    (∀ cop cell register other place, CopRegister.resolve cop cell = .ok register →
      CopRegister.resolve other place = .ok register → (other, place) = (cop, cell)) ∧
    (∀ cop cell value, ¬ CopRegister.Addressed cop cell →
      core.readCop cop cell = .error ⟨cop, cell⟩ ∧
      core.writeCop cop cell value = .error ⟨cop, cell⟩ ∧
      (core.operate (.writeCop cop cell value)).value = core) ∧
    (∀ cop cell value later, core.writeCop cop cell value = .ok later →
      core.Written cop cell value later) ∧
    (∀ index : Fin 128, core.readCop 4 (UInt16.ofNat (index.val + 1)) =
      .ok ((core.mmu.table core.mmu.control.activeTable).shown index)) ∧
    ∀ (table : Fin 4) (away : UInt32) (writes : List CopWrite) (back : UInt32),
      core.mmu.control.activeTable = table → ¬ CopWrite.Selects ⟨4, 0, away⟩ table →
      (∀ write ∈ writes, ¬ write.Selects table) → CopWrite.Selects ⟨4, 0, back⟩ table →
      ∀ index : Fin 128,
        (core.storeAll (⟨4, 0, away⟩ :: writes ++ [⟨4, 0, back⟩])).readCop 4
          (UInt16.ofNat (index.val + 1)) = core.readCop 4 (UInt16.ofNat (index.val + 1)) := by
  refine ⟨?_, ?_, ?_, ?_, ?_, ?_⟩
  · intro cop cell
    exact ⟨core.isOk_readCop_iff cop cell, core.isOk_writeCop_iff cop cell⟩
  · intro cop cell register other place resolved otherResolved
    exact CopRegister.resolve_inj resolved otherResolved
  · intro cop cell value nowhere
    have refused := CopRegister.resolve_of_unaddressed nowhere
    refine ⟨?_, ?_, core.store_of_unaddressed ⟨cop, cell, value⟩ nowhere⟩
    · rw [readCop, refused]
      rfl
    · rw [writeCop, refused]
      rfl
  · intro cop cell value later succeeds
    have addressed := (core.isOk_writeCop_iff cop cell value).1 (by rw [succeeds]; rfl)
    obtain ⟨register, resolved⟩ := CopRegister.exists_resolve addressed
    rw [core.writeCop_of_resolve resolved] at succeeds
    rw [← Except.ok.inj succeeds]
    exact core.written_of_resolve resolved value
  · exact core.readCop_shown
  · intro table away writes back active left unselected returns index
    have aside : (core.store ⟨4, 0, away⟩).Aside table (core.mmu.table table) := by
      rw [core.store_mmuControl away]
      exact ⟨fun same => left ⟨rfl, rfl, (congrArg Fin.val same).symm⟩, rfl⟩
    have kept := (aside.storeAll unselected).kept
    rw [List.cons_append, storeAll, List.foldl_cons, List.foldl_append, List.foldl_cons,
      List.foldl_nil, store_mmuControl, readCop_shown, readCop_shown]
    have selected : (MmuControl.mk back).activeTable = table := Fin.ext returns.2.2
    rw [Mmu.activeTable, Mmu.activeTable, active, ← kept, ← selected]
    rfl

def banked : Core :=
  { create 0 .empty with
    mmu := { Mmu.cleared with control := ⟨0x2000⟩ }.setActiveTable
      (.ofList [⟨0x80, 0, 0x40, 1⟩, ⟨0x100, 0x200, 0x300, 7⟩]) }

/-- Cell 7 is the size in the second entry. Writes to other tables do not change what it shows, once
the control word selects table 2 again. -/
theorem banked_independent :
    (banked.readCop 4 7).toOption = some 0x300 ∧
      ((banked.readCop 4 128).isOk = true ∧ ¬ CopRegister.Addressed 4 129 ∧
        (banked.operate (.writeCop 4 129 9)).value = banked) ∧
      (∀ other place, CopRegister.resolve other place = .ok (.mapWord 1 .size) →
        (other, place) = (4, 7)) ∧
      (∃ later, banked.writeCop 4 7 9 = .ok later ∧ banked.Written 4 7 9 later) ∧
      banked.mmu.control.activeTable = 2 ∧
      (let writes : List CopWrite := [⟨4, 7, 5⟩, ⟨0, 3, 0x2000⟩, ⟨4, 0, 0xffffcfff⟩, ⟨4, 7, 6⟩]
       (∀ write ∈ writes, ¬ write.Selects 2) ∧
        ((banked.storeAll (⟨4, 0, 0x3401⟩ :: writes ++ [⟨4, 0, 0x2001⟩])).readCop 4 7).toOption =
          some 0x300) := by
  obtain ⟨succeeds, different, refused, written, -, returns⟩ := cells_independent banked
  have sizeCell : (banked.readCop 4 7).toOption = some 0x300 := by decide +kernel
  have active : banked.mmu.control.activeTable = 2 := by decide
  have elsewhere : ∀ write ∈ [⟨4, 7, 5⟩, ⟨0, 3, 0x2000⟩, ⟨4, 0, 0xffffcfff⟩, ⟨4, 7, 6⟩],
      ¬ CopWrite.Selects write 2 := by decide
  have nowhere : ¬ CopRegister.Addressed 4 129 := by decide
  refine ⟨sizeCell, ⟨(succeeds 4 128).1.2 (by decide), nowhere, (refused 4 129 9 nowhere).2.2⟩,
    fun other place => different 4 7 _ other place rfl, ⟨_, rfl, written 4 7 9 _ rfl⟩, active,
    elsewhere, ?_⟩
  have returned := returns 2 0x3401 _ 0x2001 active (by decide) elsewhere (by decide) 6
  exact (congrArg Except.toOption returned).trans sizeCell

end Core

end RiscBoard
