import Mathlib.Data.Nat.Bitwise
import RiscBoard.Mmu.Basic

/-!
The physical memory that the active table opens to programs. Translation looks at the first address
of an access only. Its other bytes stay in the memory of the same entry if data has to be aligned and
entries hold whole words.
-/

namespace RiscBoard

/-- The bit for accesses of this kind, among the attributes of an entry and among the flags of a
segment. -/
def AccessKind.bit : AccessKind → Nat
  | .execute => 0
  | .write => 1
  | .read => 2

namespace MappingEntry

theorem allows_eq_testBit (entry : MappingEntry) (kind : AccessKind) :
    entry.allows kind = entry.attributes.toNat.testBit kind.bit := by
  have power : kind.permission.toNat = 2 ^ kind.bit := by
    cases kind with
    | read | write | execute => rfl
  rw [Bool.eq_iff_iff, allows, bne_iff_ne, Ne, ← UInt32.toNat_inj, UInt32.toNat_and, power,
    Nat.and_two_pow]
  cases entry.attributes.toNat.testBit kind.bit with
  | false => simp
  | true => simp

/-- Whether `physical` is one of the `size` addresses from the physical base on, which go on at
address 0 past the last one. -/
def reaches (entry : MappingEntry) (physical : UInt32) : Bool :=
  physical - entry.physicalBase < entry.size

theorem reaches_iff (entry : MappingEntry) (physical : UInt32) :
    entry.reaches physical = true ↔
      ∃ distance < entry.size, physical = entry.physicalBase + distance := by
  rw [reaches, decide_eq_true_iff]
  constructor
  · intro inside
    refine ⟨physical - entry.physicalBase, inside, ?_⟩
    rw [UInt32.add_comm, UInt32.sub_add_cancel]
  · rintro ⟨distance, inside, rfl⟩
    rwa [UInt32.add_comm, UInt32.add_sub_cancel]

def holdsWords (entry : MappingEntry) : Bool :=
  entry.physicalBase.toNat % 4 == 0 && entry.size.toNat % 4 == 0

/-- An aligned access to whole words does not cross the end of an entry. -/
theorem reaches_translate (entry : MappingEntry) {address : UInt32} {size : AccessSize}
    {distance : Nat} (words : entry.holdsWords = true) (covers : entry.contains address = true)
    (aligned : size.isAligned (entry.translate address) = true) (inside : distance < size.bytes) :
    entry.reaches (entry.translate address + UInt32.ofNat distance) = true := by
  simp only [holdsWords, Bool.and_eq_true, beq_iff_eq] at words
  simp only [contains, Bool.and_eq_true, decide_eq_true_eq] at covers
  simp only [AccessSize.isAligned, translate, beq_iff_eq, UInt32.toNat_add] at aligned
  have within : (address - entry.virtualBase).toNat + distance < entry.size.toNat := by
    have covered := UInt32.lt_iff_toNat_lt.1 covers.1
    cases size <;> simp only [AccessSize.bytes] at aligned inside <;> omega
  have bounded := entry.size.toNat_lt
  have place : entry.physicalBase + (address - entry.virtualBase) + UInt32.ofNat distance -
      entry.physicalBase = address - entry.virtualBase + UInt32.ofNat distance := by
    rw [UInt32.add_assoc, UInt32.add_comm, UInt32.add_sub_cancel]
  rw [reaches, translate, place, decide_eq_true_iff, UInt32.lt_iff_toNat_lt, UInt32.toNat_add,
    UInt32.toNat_ofNat']
  omega

end MappingEntry

namespace Mmu

def Reaches (mmu : Mmu) (kind : AccessKind) (physical : UInt32) : Prop :=
  ∃ slot, (mmu.activeTable.get slot).attributes.toNat.testBit kind.bit = true ∧
    (mmu.activeTable.get slot).reaches physical = true

instance (mmu : Mmu) (kind : AccessKind) (physical : UInt32) :
    Decidable (mmu.Reaches kind physical) :=
  inferInstanceAs (Decidable (∃ _, _))

/-- Virtual memory that keeps every access inside of the memory of the entry it is checked against. -/
structure Confines (mmu : Mmu) : Prop where
  enabled : mmu.control.enabled = true
  misalignmentFaults : mmu.control.misalignmentFaults = true
  wholeWords : ∀ slot, (mmu.activeTable.get slot).isVacant = false →
    (mmu.activeTable.get slot).holdsWords = true

theorem exists_slot_of_lookup {table : MappingTable} {address : UInt32} {entry : MappingEntry}
    (found : table.lookup? address = some entry) :
    entry.contains address = true ∧ ∃ slot, table.get slot = entry := by
  obtain ⟨covers, slot, inside, same, _⟩ := Vector.find?_eq_some_iff_getElem.1 found
  exact ⟨covers, ⟨slot, inside⟩, same⟩

theorem isVacant_of_contains {entry : MappingEntry} {address : UInt32}
    (covers : entry.contains address = true) : entry.isVacant = false := by
  have inside := (entry.contains_iff address).1 covers
  rw [MappingEntry.isVacant, beq_eq_false_iff_ne]
  intro empty
  rw [empty] at inside
  have zero : (0 : UInt32).toNat = 0 := rfl
  omega

/-- What a translation that succeeds says about the entry that it used. -/
theorem entry_of_translate {mmu : Mmu} {address physical : UInt32} {size : AccessSize}
    {kind : AccessKind} (enabled : mmu.control.enabled = true)
    (translated : mmu.translate address size kind = .ok physical) :
    ∃ slot, (mmu.activeTable.get slot).contains address = true ∧
      (mmu.activeTable.get slot).allows kind = true ∧
      (mmu.activeTable.get slot).translate address = physical ∧
      mmu.alignmentFault? physical size = none := by
  simp only [translate, mapped, enabled, ↓reduceIte] at translated
  cases found : mmu.activeTable.lookup? address with
  | none =>
    rw [found] at translated
    cases translated
  | some entry =>
    obtain ⟨covers, slot, same⟩ := exists_slot_of_lookup found
    rw [found] at translated
    cases permitted : entry.allows kind with
    | false =>
      simp only [permitted, Bool.false_eq_true, ↓reduceIte] at translated
      cases translated
    | true =>
      simp only [permitted, ↓reduceIte] at translated
      cases alignment : mmu.alignmentFault? (entry.translate address) size with
      | some fault =>
        rw [alignment] at translated
        cases translated
      | none =>
        rw [alignment] at translated
        cases translated
        subst same
        exact ⟨slot, covers, permitted, rfl, alignment⟩

theorem isAligned_of_no_fault {mmu : Mmu} {physical : UInt32} {size : AccessSize}
    (policy : mmu.control.misalignmentFaults = true)
    (passes : mmu.alignmentFault? physical size = none) : size.isAligned physical = true := by
  cases size with
  | byte => exact beq_iff_eq.2 (Nat.mod_one _)
  | short => simpa [alignmentFault?, policy] using passes
  | long => simpa [alignmentFault?, policy] using passes
  | exec => simpa [alignmentFault?] using passes

/-- Every byte of an access that passes lies in memory that is open to accesses of its kind. -/
theorem Confines.reaches_of_translate {mmu : Mmu} (confines : mmu.Confines)
    {address physical : UInt32} {size : AccessSize} {kind : AccessKind} {distance : Nat}
    (translated : mmu.translate address size kind = .ok physical)
    (inside : distance < size.bytes) :
    mmu.Reaches kind (physical + UInt32.ofNat distance) := by
  obtain ⟨slot, covers, permitted, place, passes⟩ :=
    entry_of_translate confines.enabled translated
  have words := confines.wholeWords slot (isVacant_of_contains covers)
  have aligned := isAligned_of_no_fault confines.misalignmentFaults passes
  rw [MappingEntry.allows_eq_testBit] at permitted
  rw [← place] at aligned ⊢
  exact ⟨slot, permitted, MappingEntry.reaches_translate _ words covers aligned inside⟩

end Mmu

end RiscBoard
