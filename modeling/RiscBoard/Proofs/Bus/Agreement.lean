import RiscBoard.Proofs.Bus.Access

/-!
Buses that agree where it can be seen. Their memories are of the same kinds in the same places, and
their bytes agree at the visible addresses. An access to visible bytes finds the same on both, and the
same write leaves them in agreement.
-/

namespace RiscBoard

/-- Two memories of the same kind and range whose visible bytes agree. -/
inductive MemoryDevice.AgreesOn (visible : UInt32 → Prop) : MemoryDevice → MemoryDevice → Prop where
  | ram {memory other : Ram} (range : other.range = memory.range)
      (bytes : ∀ offset < memory.range.size, visible (memory.range.addressAt offset) →
        other.contents.byteAt offset = memory.contents.byteAt offset) :
      AgreesOn visible (.ram memory) (.ram other)
  | rom {memory other : Rom} (range : other.range = memory.range)
      (bytes : ∀ offset < memory.range.size, visible (memory.range.addressAt offset) →
        Bytes.byteAt other.image offset = Bytes.byteAt memory.image offset) :
      AgreesOn visible (.rom memory) (.rom other)

namespace MemoryDevice.AgreesOn

variable {visible : UInt32 → Prop} {device other : MemoryDevice}

theorem range_eq (agrees : device.AgreesOn visible other) : other.range = device.range := by
  cases agrees with
  | ram range _ => exact range
  | rom range _ => exact range

theorem isPeripheral_eq (agrees : device.AgreesOn visible other) : device.isPeripheral = false := by
  cases agrees with
  | ram _ _ => rfl
  | rom _ _ => rfl

theorem symm (agrees : device.AgreesOn visible other) : other.AgreesOn visible device := by
  cases agrees with
  | ram range bytes =>
    refine .ram range.symm fun offset inside seen => ?_
    rw [range] at inside seen
    exact (bytes offset inside seen).symm
  | rom range bytes =>
    refine .rom range.symm fun offset inside seen => ?_
    rw [range] at inside seen
    exact (bytes offset inside seen).symm

/-- Bytes past the end are zero on both sides, so that only visible bytes count. -/
theorem read_eq (agrees : device.AgreesOn visible other) {address : UInt32} {size : AccessSize}
    (seen : ∀ distance < size.bytes, visible (address + UInt32.ofNat distance)) :
    (other.read (address - device.range.start) size).1 =
      (device.read (address - device.range.start) size).1 := by
  cases agrees with
  | @ram memory other range bytes =>
    apply Bytes.value_congr
    intro distance inside
    by_cases within : (address - memory.range.start).toNat + distance < memory.range.size
    · apply bytes _ within
      rw [AddressRange.addressAt_offset]
      exact seen distance inside
    · have past := Nat.le_of_not_lt within
      rw [← memory.size_eq] at past
      have otherPast := past
      rw [← Ram.contents_size_of_range range] at otherPast
      exact (Contents.byteAt_of_size_le otherPast).trans (Contents.byteAt_of_size_le past).symm
  | @rom memory other range bytes =>
    apply Bytes.value_congr
    intro distance inside
    by_cases within : (address - memory.range.start).toNat + distance < memory.range.size
    · apply bytes _ within
      rw [AddressRange.addressAt_offset]
      exact seen distance inside
    · have past := Nat.le_of_not_lt within
      have otherFits : other.image.size ≤ memory.range.size := range ▸ other.image_fits
      have ends := Nat.le_trans memory.image_fits past
      have otherEnds := Nat.le_trans otherFits past
      exact (Bytes.byteAt_of_size_le otherEnds).trans (Bytes.byteAt_of_size_le ends).symm

theorem write (agrees : device.AgreesOn visible other) (offset value : UInt32)
    (size : AccessSize) :
    (device.write offset value size).AgreesOn visible (other.write offset value size) := by
  cases agrees with
  | @ram memory other range bytes =>
    refine .ram range ?_
    intro index inside seen
    rw [Ram.contents_write, Ram.contents_write, Contents.byteAt_write, Contents.byteAt_write,
      Ram.contents_size_of_range range]
    split
    · rfl
    · exact bytes index inside seen
  | rom range bytes => exact .rom range bytes

end MemoryDevice.AgreesOn

namespace Bus

structure AgreesOn (visible : UInt32 → Prop) (bus other : Bus) : Prop where
  noWindow : bus.window = none
  otherNoWindow : other.window = none
  memory : ∀ index : Nat,
    Option.Rel (MemoryDevice.AgreesOn visible) bus.memory[index]? other.memory[index]?

namespace AgreesOn

variable {visible : UInt32 → Prop} {bus other : Bus}

theorem symm (agrees : bus.AgreesOn visible other) : other.AgreesOn visible bus := by
  refine ⟨agrees.otherNoWindow, agrees.noWindow, fun index => ?_⟩
  have devices := agrees.memory index
  generalize bus.memory[index]? = placed at devices ⊢
  generalize other.memory[index]? = otherPlaced at devices ⊢
  cases devices with
  | none => exact .none
  | some agree => exact .some agree.symm

theorem windowPort?_eq_none {bus : Bus} (noWindow : bus.window = none) (address : UInt32) :
    bus.windowPort? address = none := by
  rw [windowPort?, noWindow]
  rfl

theorem target?_eq (agrees : bus.AgreesOn visible other) (address : UInt32) :
    other.target? address = bus.target? address := by
  have ranges : other.memory.map MemoryDevice.range = bus.memory.map MemoryDevice.range := by
    apply Array.ext_getElem?
    intro index
    rw [Array.getElem?_map, Array.getElem?_map]
    have devices := agrees.memory index
    generalize bus.memory[index]? = placed at devices ⊢
    generalize other.memory[index]? = otherPlaced at devices ⊢
    cases devices with
    | none => rfl
    | some agree => exact congrArg some agree.range_eq
  have found := congrArg (Array.findIdx? (·.contains address)) ranges
  rw [Array.findIdx?_map, Array.findIdx?_map] at found
  rw [target?, target?, windowPort?_eq_none agrees.noWindow,
    windowPort?_eq_none agrees.otherNoWindow]
  exact found

theorem devices_of_target (agrees : bus.AgreesOn visible other) {address : UInt32} {index : Nat}
    (goes : bus.target? address = some index) :
    ∃ device otherDevice, bus.memory[index]? = some device ∧
      other.memory[index]? = some otherDevice ∧ device.AgreesOn visible otherDevice := by
  obtain ⟨_, inside, _⟩ := memoryOwner?_of_target goes
  have devices := agrees.memory index
  rw [Array.getElem?_eq_getElem inside] at devices ⊢
  generalize other.memory[index]? = otherPlaced at devices ⊢
  cases devices with
  | some agree => exact ⟨_, _, rfl, rfl, agree⟩

theorem value_read_eq (agrees : bus.AgreesOn visible other) {address : UInt32}
    {size : AccessSize}
    (seen : ∀ distance < size.bytes, visible (address + UInt32.ofNat distance)) :
    (other.read address size).value.1 = (bus.read address size).value.1 := by
  have sameTarget := agrees.target?_eq address
  cases goes : bus.target? address with
  | none =>
    rw [goes] at sameTarget
    rw [value_read_of_no_target size (windowPort?_eq_none agrees.noWindow address) goes,
      value_read_of_no_target size (windowPort?_eq_none agrees.otherNoWindow address) sameTarget]
  | some index =>
    rw [goes] at sameTarget
    obtain ⟨device, otherDevice, placed, otherPlaced, agree⟩ := agrees.devices_of_target goes
    rw [value_read_of_target size goes placed, value_read_of_target size sameTarget otherPlaced,
      agree.range_eq, agree.read_eq seen]

theorem isPassive (agrees : bus.AgreesOn visible other) (address : UInt32) :
    bus.isPassive address = true := by
  rw [Bus.isPassive, windowPort?_eq_none agrees.noWindow]
  cases owned : bus.memoryOwner? address with
  | none => rfl
  | some index =>
    have placed := Array.getElem?_eq_getElem index.isLt
    have devices := agrees.memory index
    rw [placed] at devices
    generalize other.memory[index.val]? = otherPlaced at devices
    cases devices with
    | some agree =>
      simp only [Option.isNone_none, Option.all_some, placed, agree.isPeripheral_eq, Bool.not_false,
        Bool.and_self]

theorem bus_read_eq (agrees : bus.AgreesOn visible other) (address : UInt32) (size : AccessSize) :
    (bus.read address size).value.2 = bus ∧ (other.read address size).value.2 = other :=
  ⟨read_passive (agrees.isPassive address) size,
    read_passive (agrees.symm.isPassive address) size⟩

theorem write (agrees : bus.AgreesOn visible other) (address value : UInt32) (size : AccessSize) :
    (bus.write address value size).value.AgreesOn visible
      (other.write address value size).value := by
  constructor
  · rw [window_write, agrees.noWindow]
  · rw [window_write, agrees.otherNoWindow]
  · intro index
    rw [getElem?_write, getElem?_write, agrees.target?_eq address]
    have devices := agrees.memory index
    split
    · generalize bus.memory[index]? = placed at devices ⊢
      generalize other.memory[index]? = otherPlaced at devices ⊢
      cases devices with
      | none => exact .none
      | some agree =>
        apply Option.Rel.some
        simp only [agree.range_eq]
        exact agree.write _ _ size
    · exact devices

end AgreesOn

end Bus

end RiscBoard
