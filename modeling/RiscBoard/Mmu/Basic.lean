import RiscBoard.Exception
import RiscBoard.Mmu.Control
import RiscBoard.Mmu.Mapping

/-!
Virtual memory. There is one mapping table for each privilege level, and only the active one is
searched. Permissions are checked before alignment, and alignment is judged on the physical address.
-/

namespace RiscBoard

structure Mmu where
  control : MmuControl
  tables : Vector MappingTable 4
  deriving DecidableEq

def AccessKind.protectionFault : AccessKind → Exception
  | .read => .readProtection
  | .write => .writeProtection
  | .execute => .execProtection

namespace Mmu

def cleared : Mmu := ⟨.cleared, Vector.replicate 4 .empty⟩

def table (mmu : Mmu) (index : Fin 4) : MappingTable := mmu.tables[index]

def setTable (mmu : Mmu) (index : Fin 4) (table : MappingTable) : Mmu :=
  { mmu with tables := mmu.tables.set index table }

theorem table_setTable (mmu : Mmu) (index other : Fin 4) (table : MappingTable) :
    (mmu.setTable index table).table other = if index = other then table else mmu.table other := by
  simp [Mmu.table, setTable, Vector.getElem_set, Fin.ext_iff]

def activeTable (mmu : Mmu) : MappingTable := mmu.table mmu.control.activeTable

def setActiveTable (mmu : Mmu) (table : MappingTable) : Mmu :=
  mmu.setTable mmu.control.activeTable table

/-- The physical address before alignment is looked at. With virtual memory off it is the address
itself. -/
def mapped (mmu : Mmu) (address : UInt32) (kind : AccessKind) : Except Exception UInt32 :=
  if mmu.control.enabled then
    match mmu.activeTable.lookup? address with
    | none => .error .noMapping
    | some entry =>
      if entry.allows kind then .ok (entry.translate address) else .error kind.protectionFault
  else
    .ok address

/-- The fault that the alignment of a physical address raises. Fetches always have to be aligned,
shorts and longs only under the misalignment policy. -/
def alignmentFault? (mmu : Mmu) (physical : UInt32) (size : AccessSize) : Option Exception :=
  match size with
  | .exec => if size.isAligned physical then none else some .fetchMisaligned
  | .short | .long =>
    if mmu.control.misalignmentFaults && !size.isAligned physical then some .dataMisaligned
    else none
  | .byte => none

def translate (mmu : Mmu) (address : UInt32) (size : AccessSize) (kind : AccessKind) :
    Except Exception UInt32 :=
  match mmu.mapped address kind with
  | .error fault => .error fault
  | .ok physical =>
    match mmu.alignmentFault? physical size with
    | some fault => .error fault
    | none => .ok physical

end Mmu

end RiscBoard
