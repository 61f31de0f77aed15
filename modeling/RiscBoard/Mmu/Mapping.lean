import RiscBoard.Access

/-!
Mapping tables. An entry maps a contiguous range of virtual addresses onto physical memory and
grants permissions on it. Entries may overlap; the first one that contains an address decides.
-/

namespace RiscBoard

inductive EntryField where
  | physicalBase
  | virtualBase
  | size
  | attributes
  deriving DecidableEq

def EntryField.table : Vector EntryField 4 := #v[physicalBase, virtualBase, size, attributes]

def EntryField.ofCode (code : Fin 4) : EntryField := table.get code

def EntryField.code : EntryField → Nat
  | physicalBase => 0
  | virtualBase => 1
  | size => 2
  | attributes => 3

theorem EntryField.code_lt (field : EntryField) : field.code < 4 := by
  cases field <;> decide

@[simp] theorem EntryField.code_ofCode : ∀ code : Fin 4, (ofCode code).code = code.val := by decide

def AccessKind.permission : AccessKind → UInt32
  | .execute => 1
  | .write => 2
  | .read => 4

structure MappingEntry where
  physicalBase : UInt32
  virtualBase : UInt32
  size : UInt32
  attributes : UInt32
  deriving DecidableEq

namespace MappingEntry

def vacant : MappingEntry := ⟨0, 0, 0, 0⟩

/-- Whether the entry covers `address`. Its range does not wrap past the last address. -/
def contains (entry : MappingEntry) (address : UInt32) : Bool :=
  address - entry.virtualBase < entry.size && entry.virtualBase ≤ address

def translate (entry : MappingEntry) (address : UInt32) : UInt32 :=
  entry.physicalBase + (address - entry.virtualBase)

def allows (entry : MappingEntry) (kind : AccessKind) : Bool :=
  entry.attributes &&& kind.permission != 0

def isVacant (entry : MappingEntry) : Bool := entry.size == 0

/-- Containment stated on unbounded numbers. -/
theorem contains_iff (entry : MappingEntry) (address : UInt32) :
    entry.contains address = true ↔
      entry.virtualBase.toNat ≤ address.toNat ∧
        address.toNat < entry.virtualBase.toNat + entry.size.toNat := by
  have bounded := address.toNat_lt
  have baseBounded := entry.virtualBase.toNat_lt
  simp only [contains, Bool.and_eq_true, decide_eq_true_eq, UInt32.lt_iff_toNat_lt,
    UInt32.le_iff_toNat_le, UInt32.toNat_sub]
  omega

def word (entry : MappingEntry) : EntryField → UInt32
  | .physicalBase => entry.physicalBase
  | .virtualBase => entry.virtualBase
  | .size => entry.size
  | .attributes => entry.attributes

def setWord (entry : MappingEntry) (field : EntryField) (value : UInt32) : MappingEntry :=
  match field with
  | .physicalBase => { entry with physicalBase := value }
  | .virtualBase => { entry with virtualBase := value }
  | .size => { entry with size := value }
  | .attributes => { entry with attributes := value }

theorem word_setWord (entry : MappingEntry) (field other : EntryField) (value : UInt32) :
    (entry.setWord field value).word other = if field = other then value else entry.word other := by
  cases field <;> cases other <;> rfl

end MappingEntry

inductive MapError where
  | full
  deriving DecidableEq

structure MappingTable where
  entries : Vector MappingEntry 32
  deriving DecidableEq

def MapError.message : MapError → String
  | .full => "all 32 entries of the mapping table are in use"

namespace MappingTable

def empty : MappingTable := ⟨Vector.replicate 32 .vacant⟩

def get (table : MappingTable) (slot : Fin 32) : MappingEntry := table.entries[slot]

def set (table : MappingTable) (slot : Fin 32) (entry : MappingEntry) : MappingTable :=
  ⟨table.entries.set slot entry⟩

theorem get_set (table : MappingTable) (slot other : Fin 32) (entry : MappingEntry) :
    (table.set slot entry).get other = if slot = other then entry else table.get other := by
  simp [get, set, Vector.getElem_set, Fin.ext_iff]

def lookup? (table : MappingTable) (address : UInt32) : Option MappingEntry :=
  table.entries.find? (·.contains address)

def firstVacant? (table : MappingTable) : Option (Fin 32) :=
  table.entries.findFinIdx? (·.isVacant)

def insert (table : MappingTable) (entry : MappingEntry) :
    Except MapError (Fin 32 × MappingTable) :=
  match table.firstVacant? with
  | none => .error .full
  | some slot => .ok (slot, table.set slot entry)

end MappingTable

end RiscBoard
