import RiscBoard.Bus.Device

/-!
The physical address space. An address in the port window goes to the device that owns the port, any
other address to the memory device whose range contains it; of several devices the one attached
first is meant. Values are cut down to the size of the access on their way to and from a device.
-/

namespace RiscBoard

/-- Devices in the order of attachment, and the window through which ports appear in memory. -/
structure Bus where
  window : Option AddressRange
  ports : Array PortDevice
  memory : Array MemoryDevice

namespace Bus

def empty : Bus := ⟨none, #[], #[]⟩

/-- What a read finds where no device answers. -/
def openValue : UInt32 := 0xffffffff

def windowSize : Nat := 0x10000

def attachMemory (bus : Bus) (device : MemoryDevice) : Traced Bus := do
  Traced.log (.memoryAttached device.range)
  pure { bus with memory := bus.memory.push device }

def attachPorts (bus : Bus) (device : PortDevice) : Traced Bus := do
  Traced.log (.portsAttached device.ports)
  pure { bus with ports := bus.ports.push device }

def mapWindow (bus : Bus) (base : UInt32) : Except InvalidBounds Bus :=
  (AddressRange.ofSize base windowSize).map fun range => { bus with window := some range }

def windowPort? (bus : Bus) (address : UInt32) : Option UInt16 :=
  bus.window.bind fun window => (window.offset? address).map (·.toUInt16)

def portOwner? (bus : Bus) (port : UInt16) : Option (Fin bus.ports.size) :=
  bus.ports.findFinIdx? (·.ports.contains port)

def memoryOwner? (bus : Bus) (address : UInt32) : Option (Fin bus.memory.size) :=
  bus.memory.findFinIdx? (·.range.contains address)

def readPort (bus : Bus) (port : UInt16) (size : AccessSize) : Traced (UInt32 × Bus) :=
  match bus.portOwner? port with
  | none => pure (openValue, bus)
  | some index => do
    let location := port.toUInt32
    Traced.emit (.access (.port index) (.read location size))
    let device := bus.ports[index]
    let (value, asked) := device.peripheral.read location size
    let ports := bus.ports.set index { device with peripheral := asked }
    pure (size.truncate value, { bus with ports := ports })

def writePort (bus : Bus) (port : UInt16) (value : UInt32) (size : AccessSize) : Traced Bus :=
  match bus.portOwner? port with
  | none => pure bus
  | some index => do
    let location := port.toUInt32
    let stored := size.truncate value
    Traced.emit (.access (.port index) (.write location size stored))
    let device := bus.ports[index]
    let told := device.peripheral.write location stored size
    pure { bus with ports := bus.ports.set index { device with peripheral := told } }

def readMemory (bus : Bus) (address : UInt32) (size : AccessSize) : Traced (UInt32 × Bus) :=
  match bus.memoryOwner? address with
  | none => pure (openValue, bus)
  | some index => do
    let device := bus.memory[index]
    let offset := address - device.range.start
    Traced.emit (.access (.memory index) (.read offset size))
    let (value, asked) := device.read offset size
    pure (size.truncate value, { bus with memory := bus.memory.set index asked })

def writeMemory (bus : Bus) (address value : UInt32) (size : AccessSize) : Traced Bus :=
  match bus.memoryOwner? address with
  | none => do
    Traced.log (.writeDropped value address)
    pure bus
  | some index =>
    let device := bus.memory[index]
    let offset := address - device.range.start
    let stored := size.truncate value
    let events := .access (.memory index) (.write offset size stored) ::
      device.writeEvents offset stored
    let memory := bus.memory.modify index fun device => device.write offset stored size
    ⟨{ bus with memory := memory }, events⟩

def read (bus : Bus) (address : UInt32) (size : AccessSize) : Traced (UInt32 × Bus) :=
  match bus.windowPort? address with
  | some port => bus.readPort port size
  | none => bus.readMemory address size

def write (bus : Bus) (address value : UInt32) (size : AccessSize) : Traced Bus :=
  match bus.windowPort? address with
  | some port => bus.writePort port value size
  | none => bus.writeMemory address value size

def modifyRam (bus : Bus) (index : Nat) (change : Ram → Ram) : Bus :=
  match bus with
  | ⟨window, ports, memory⟩ =>
    ⟨window, ports, memory.modify index fun device => device.modifyRam change⟩

end Bus

end RiscBoard
