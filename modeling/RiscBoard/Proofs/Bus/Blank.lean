import RiscBoard.Proofs.Bus.Access

/-!
What no access changes about a bus. A blank bus has its memories cleared, its peripherals without a
history and its ports without devices; what is left is which device is where. Every access leaves this
as it was, so that it goes on deciding where accesses go.
-/

namespace RiscBoard

def Peripheral.blank (peripheral : Peripheral) : Peripheral := { peripheral with history := [] }

theorem Peripheral.blank_record (peripheral : Peripheral) (access : DeviceAccess) :
    (peripheral.record access).blank = peripheral.blank := by
  unfold record
  split
  · rfl
  · rfl

namespace MemoryDevice

def blank : MemoryDevice → MemoryDevice
  | .ram memory => .ram memory.reset
  | .rom memory => .rom memory
  | .peripheral range behaviour => .peripheral range behaviour.blank

@[simp] theorem range_blank (device : MemoryDevice) : device.blank.range = device.range := by
  cases device <;> rfl

@[simp] theorem blank_read (device : MemoryDevice) (offset : UInt32) (size : AccessSize) :
    (device.read offset size).2.blank = device.blank := by
  cases device with
  | ram memory => rfl
  | rom memory => rfl
  | peripheral range behaviour =>
    exact congrArg (peripheral range) (behaviour.blank_record _)

@[simp] theorem blank_write (device : MemoryDevice) (offset value : UInt32) (size : AccessSize) :
    (device.write offset value size).blank = device.blank := by
  cases device with
  | ram memory => rfl
  | rom memory => rfl
  | peripheral range behaviour =>
    exact congrArg (peripheral range) (behaviour.blank_record _)

@[simp] theorem blank_modifyRam (device : MemoryDevice) {change : Ram → Ram}
    (keeps : ∀ memory, (change memory).range = memory.range) :
    (device.modifyRam change).blank = device.blank := by
  cases device with
  | ram memory =>
    simp only [modifyRam, blank, Ram.reset, keeps]
  | rom memory => rfl
  | peripheral range behaviour => rfl

end MemoryDevice

namespace Bus

def blank (bus : Bus) : Bus := ⟨bus.window, #[], bus.memory.map MemoryDevice.blank⟩

/-- A change of devices that keeps what they are does not show on the blank bus. -/
theorem blank_eq_of_devices {bus other : Bus} (window : other.window = bus.window)
    (devices : ∀ index : Nat,
      other.memory[index]?.map MemoryDevice.blank = bus.memory[index]?.map MemoryDevice.blank) :
    other.blank = bus.blank := by
  have memory : other.memory.map MemoryDevice.blank = bus.memory.map MemoryDevice.blank := by
    apply Array.ext_getElem?
    intro index
    rw [Array.getElem?_map, Array.getElem?_map, devices]
  rw [blank, blank, window, memory]

@[simp] theorem blank_read (bus : Bus) (address : UInt32) (size : AccessSize) :
    (bus.read address size).value.2.blank = bus.blank := by
  refine blank_eq_of_devices (bus.window_read address size) fun index => ?_
  rw [getElem?_read]
  split
  · cases bus.memory[index]? with
    | none => rfl
    | some device => exact congrArg some (MemoryDevice.blank_read ..)
  · rfl

@[simp] theorem blank_write (bus : Bus) (address value : UInt32) (size : AccessSize) :
    (bus.write address value size).value.blank = bus.blank := by
  refine blank_eq_of_devices (bus.window_write address value size) fun index => ?_
  rw [getElem?_write]
  split
  · cases bus.memory[index]? with
    | none => rfl
    | some device => exact congrArg some (MemoryDevice.blank_write ..)
  · rfl

@[simp] theorem blank_modifyRam (bus : Bus) (index : Nat) {change : Ram → Ram}
    (keeps : ∀ memory, (change memory).range = memory.range) :
    (bus.modifyRam index change).blank = bus.blank := by
  refine blank_eq_of_devices rfl fun other => ?_
  simp only [modifyRam, Array.getElem?_modify]
  split
  · cases bus.memory[other]? with
    | none => rfl
    | some device => exact congrArg some (device.blank_modifyRam keeps)
  · rfl

theorem target?_blank (bus : Bus) (address : UInt32) :
    bus.blank.target? address = bus.target? address := by
  have same : bus.blank.memory.findIdx? (·.range.contains address) =
      bus.memory.findIdx? (·.range.contains address) := by
    simp only [blank, Array.findIdx?_map, Function.comp_def, MemoryDevice.range_blank]
  unfold target?
  rw [same]
  rfl

theorem target?_of_blank {bus other : Bus} (same : other.blank = bus.blank) (address : UInt32) :
    other.target? address = bus.target? address := by
  rw [← target?_blank, same, target?_blank]

end Bus

end RiscBoard
