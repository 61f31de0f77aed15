import RiscBoard.Proofs.Bus.Reading

/-!
Which memory device an access goes to, and what the access is there. A device is named by its place on
the bus, which no access changes, so that the same name can be used before and after an access and on
different buses.
-/

namespace RiscBoard

namespace AddressRange

theorem contains_iff_toNat (range : AddressRange) (address : UInt32) :
    range.contains address = true ↔
      range.start.toNat ≤ address.toNat ∧ address.toNat < range.stop := by
  rw [contains, Bool.and_eq_true, decide_eq_true_eq, decide_eq_true_eq, UInt32.le_iff_toNat_le]

def addressAt (range : AddressRange) (offset : Nat) : UInt32 := range.start + UInt32.ofNat offset

theorem addressAt_offset (range : AddressRange) (address : UInt32) (distance : Nat) :
    range.addressAt ((address - range.start).toNat + distance) =
      address + UInt32.ofNat distance := by
  rw [addressAt, UInt32.ofNat_add, UInt32.ofNat_toNat, ← UInt32.add_assoc, UInt32.add_comm range.start,
    UInt32.sub_add_cancel]

end AddressRange

/-- All that is seen of a write besides the access is what the device logs. -/
theorem MemoryDevice.access_notMem_writeEvents (device : MemoryDevice) (offset value : UInt32)
    (asked : DeviceId) (access : DeviceAccess) :
    Event.access asked access ∉ device.writeEvents offset value := by
  cases device with
  | ram | rom | peripheral => simp [writeEvents]

namespace Bus

/-- The place of the memory device that a physical access goes to; none if it goes to a port or is
answered by nobody. -/
def target? (bus : Bus) (address : UInt32) : Option Nat :=
  match bus.windowPort? address with
  | some _ => none
  | none => bus.memory.findIdx? (·.range.contains address)

theorem memoryOwner?_val (bus : Bus) (address : UInt32) :
    (bus.memoryOwner? address).map Fin.val =
      bus.memory.findIdx? (·.range.contains address) :=
  Array.findIdx?_eq_map_findFinIdx?_val.symm

section Target

variable {bus : Bus} {address : UInt32} {index : Nat}

theorem memoryOwner?_of_target (goes : bus.target? address = some index) :
    bus.windowPort? address = none ∧
      ∃ inside : index < bus.memory.size, bus.memoryOwner? address = some ⟨index, inside⟩ := by
  unfold target? at goes
  split at goes
  · cases goes
  · next noPort =>
    rw [← memoryOwner?_val, Option.map_eq_some_iff] at goes
    obtain ⟨owner, owned, same⟩ := goes
    subst same
    exact ⟨noPort, owner.isLt, owned⟩

theorem value_read_of_target {device : MemoryDevice} (size : AccessSize)
    (goes : bus.target? address = some index) (placed : bus.memory[index]? = some device) :
    (bus.read address size).value.1 =
      size.truncate (device.read (address - device.range.start) size).1 := by
  obtain ⟨noPort, inside, owned⟩ := memoryOwner?_of_target goes
  obtain ⟨_, same⟩ := Array.getElem?_eq_some_iff.1 placed
  subst same
  simp only [read, noPort, readMemory, owned]
  rfl

theorem value_read_of_no_target (size : AccessSize) (noPort : bus.windowPort? address = none)
    (nobody : bus.target? address = none) : (bus.read address size).value.1 = openValue := by
  have unowned : bus.memoryOwner? address = none := by
    rwa [target?, noPort, ← memoryOwner?_val, Option.map_eq_none_iff] at nobody
  simp only [read, noPort, readMemory, unowned]
  rfl

theorem getElem?_write (bus : Bus) (address value : UInt32) (size : AccessSize) (index : Nat) :
    (bus.write address value size).value.memory[index]? =
      if bus.target? address = some index then
        bus.memory[index]?.map fun device =>
          device.write (address - device.range.start) (size.truncate value) size
      else bus.memory[index]? := by
  unfold write target?
  cases port : bus.windowPort? address with
  | some number =>
    simp only [reduceCtorEq, ↓reduceIte, writePort]
    split
    · rfl
    · rfl
  | none =>
    simp only [← memoryOwner?_val, writeMemory]
    cases owned : bus.memoryOwner? address with
    | none => rfl
    | some owner =>
      simp only [Option.map_some, Option.some.injEq, Array.getElem?_modify]
      split
      · next same =>
        subst same
        simp only [Array.getElem?_eq_getElem owner.isLt, Option.map_some]
        rfl
      · rfl

theorem getElem?_read (bus : Bus) (address : UInt32) (size : AccessSize) (index : Nat) :
    (bus.read address size).value.2.memory[index]? =
      if bus.target? address = some index then
        bus.memory[index]?.map fun device => (device.read (address - device.range.start) size).2
      else bus.memory[index]? := by
  unfold read target?
  cases port : bus.windowPort? address with
  | some number =>
    simp only [reduceCtorEq, ↓reduceIte, readPort]
    split
    · rfl
    · rfl
  | none =>
    simp only [← memoryOwner?_val, readMemory]
    cases owned : bus.memoryOwner? address with
    | none => rfl
    | some owner =>
      simp only [Option.map_some, Option.some.injEq, Traced.value_bind, Traced.value_pure,
        Array.getElem?_set]
      split
      · next same =>
        subst same
        rw [Array.getElem?_eq_getElem owner.isLt]
        rfl
      · rfl

/-- A read is seen by the memory device that it goes to and by no other. -/
theorem access_mem_events_read (bus : Bus) (address : UInt32) (size : AccessSize) (index : Nat) :
    (∃ access, Event.access (.memory index) access ∈ (bus.read address size).events) ↔
      bus.target? address = some index := by
  unfold read target?
  cases port : bus.windowPort? address with
  | some number =>
    simp only [readPort]
    split
    · simp
    · simp only [Traced.events_bind, Traced.events_emit, Traced.events_pure]
      simp
  | none =>
    simp only [← memoryOwner?_val, readMemory]
    cases owned : bus.memoryOwner? address with
    | none => simp
    | some owner =>
      simp only [Traced.events_bind, Traced.events_emit, Traced.events_pure]
      simp [eq_comm]

theorem access_mem_events_write (bus : Bus) (address value : UInt32) (size : AccessSize)
    (index : Nat) :
    (∃ access, Event.access (.memory index) access ∈ (bus.write address value size).events) ↔
      bus.target? address = some index := by
  unfold write target?
  cases port : bus.windowPort? address with
  | some number =>
    simp only [writePort]
    split
    · simp
    · simp only [Traced.events_bind, Traced.events_emit, Traced.events_pure]
      simp
  | none =>
    simp only [← memoryOwner?_val, writeMemory]
    cases owned : bus.memoryOwner? address with
    | none =>
      simp only [Traced.events_bind, Traced.events_log, Traced.events_pure]
      simp
    | some owner =>
      simp [MemoryDevice.access_notMem_writeEvents, eq_comm]

end Target

@[simp] theorem window_read (bus : Bus) (address : UInt32) (size : AccessSize) :
    (bus.read address size).value.2.window = bus.window := by
  unfold read
  split
  · unfold readPort
    split
    · rfl
    · rfl
  · unfold readMemory
    split
    · rfl
    · rfl

@[simp] theorem window_write (bus : Bus) (address value : UInt32) (size : AccessSize) :
    (bus.write address value size).value.window = bus.window := by
  unfold write
  split
  · unfold writePort
    split
    · rfl
    · rfl
  · unfold writeMemory
    split
    · rfl
    · rfl

end Bus

theorem Ram.contents_size_of_range {memory other : Ram} (range : other.range = memory.range) :
    other.contents.size = memory.contents.size := by
  rw [other.size_eq, memory.size_eq, range]

namespace Contents

theorem byteAt_write (contents : Contents) (offset : Nat) (value : UInt32) (size : AccessSize)
    (index : Nat) :
    (contents.write offset value size).byteAt index =
      if offset ≤ index ∧ index < offset + size.bytes ∧ index < contents.size then
        Bytes.wordByte value (index - offset)
      else contents.byteAt index :=
  contents.byteAt_patch offset size.bytes (Bytes.wordByte value) index

theorem byteAt_write_of_outside (contents : Contents) {offset : Nat} {value : UInt32}
    {size : AccessSize} {index : Nat}
    (outside : ∀ distance < size.bytes, index ≠ offset + distance) :
    (contents.write offset value size).byteAt index = contents.byteAt index := by
  rw [byteAt_write, if_neg]
  rintro ⟨after, before, _⟩
  exact outside (index - offset) (by omega) (by omega)

end Contents

end RiscBoard
