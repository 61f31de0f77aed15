import RiscBoard.Bus.Dispatch

/-!
What a read does to the bus. Memories stay as they are whoever is asked, and where no peripheral is
asked the whole bus stays as it is.
-/

namespace RiscBoard

def MemoryDevice.isPeripheral : MemoryDevice → Bool
  | .peripheral .. => true
  | _ => false

theorem MemoryDevice.read_memory {device : MemoryDevice} (plain : device.isPeripheral = false)
    (offset : UInt32) (size : AccessSize) : (device.read offset size).2 = device := by
  cases device with
  | ram memory => rfl
  | rom memory => rfl
  | peripheral range behaviour => cases plain

theorem MemoryDevice.read_eq_iff {other : MemoryDevice} (plain : other.isPeripheral = false)
    (device : MemoryDevice) (offset : UInt32) (size : AccessSize) :
    (device.read offset size).2 = other ↔ device = other := by
  cases device with
  | ram memory => rfl
  | rom memory => rfl
  | peripheral range behaviour =>
    constructor
    · intro same
      rw [← same] at plain
      cases plain
    · intro same
      rw [← same] at plain
      cases plain

namespace Bus

def ofImage (image : ByteArray) : Bus :=
  match Rom.ofImage 0 image with
  | .ok rom => { empty with memory := #[.rom rom] }
  | .error _ => empty

/-- Whether a read at an address asks no peripheral: memory answers it, or nobody does. -/
def isPassive (bus : Bus) (address : UInt32) : Bool :=
  (bus.windowPort? address).isNone &&
    (bus.memoryOwner? address).all fun index =>
      bus.memory[index.val]?.all fun device => !device.isPeripheral

theorem read_passive {bus : Bus} {address : UInt32} (passive : bus.isPassive address = true)
    (size : AccessSize) : (bus.read address size).value.2 = bus := by
  simp only [isPassive, Bool.and_eq_true, Option.isNone_iff_eq_none] at passive
  obtain ⟨noPort, memory⟩ := passive
  simp only [read, noPort, readMemory]
  cases owned : bus.memoryOwner? address with
  | none => rfl
  | some index =>
    simp only [owned, Option.all_some, Array.getElem?_eq_getElem index.isLt,
      Bool.not_eq_true'] at memory
    have plain : bus.memory[index].isPeripheral = false := memory
    simp only [Traced.value_bind, Traced.value_pure, MemoryDevice.read_memory plain]
    simp only [Fin.getElem_fin, Array.set_getElem_self]

def SameMemory (bus other : Bus) : Prop :=
  ∀ (index : Nat) (device : MemoryDevice), device.isPeripheral = false →
    (other.memory[index]? = some device ↔ bus.memory[index]? = some device)

/-- A read leaves every memory as it was, also one that asks a peripheral. -/
theorem sameMemory_read (bus : Bus) (address : UInt32) (size : AccessSize) :
    bus.SameMemory (bus.read address size).value.2 := by
  intro index device plain
  unfold read
  split
  · unfold readPort
    split
    · rfl
    · rfl
  · unfold readMemory
    split
    · rfl
    · next owner _ =>
      simp only [Traced.value_bind, Traced.value_pure]
      by_cases same : owner.val = index
      · subst same
        rw [Array.getElem?_set_self, Array.getElem?_eq_getElem owner.isLt, Option.some.injEq,
          Option.some.injEq]
        exact MemoryDevice.read_eq_iff plain _ _ size
      · rw [Array.getElem?_set_ne _ same]

end Bus

end RiscBoard
