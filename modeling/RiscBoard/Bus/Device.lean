import RiscBoard.Event
import RiscBoard.Memory.Ram
import RiscBoard.Memory.Rom

/-!
Devices that can be attached to the bus. Memories are known by their bytes; any other device is
known by its answers, which may depend on everything that was ever asked of it.
-/

namespace RiscBoard

/-- A device given by its behaviour: what it answers to a read is a function of the accesses that it
remembers, the newest one first. A device that remembers all of them can behave in any way. -/
structure Peripheral where
  /-- The answer to a read of some size at a location. -/
  answer : List DeviceAccess → UInt32 → AccessSize → UInt32
  /-- Whether an access can matter to a later answer. -/
  remembers : DeviceAccess → Bool
  history : List DeviceAccess

namespace Peripheral

def record (peripheral : Peripheral) (access : DeviceAccess) : Peripheral :=
  if peripheral.remembers access then
    { peripheral with history := access :: peripheral.history }
  else peripheral

def constant (value : UInt32) : Peripheral := ⟨fun _ _ _ => value, fun _ => false, []⟩

def isWrite : DeviceAccess → Bool
  | .write .. => true
  | .read .. => false

def lastWritten (initial : UInt32) : List DeviceAccess → UInt32
  | [] => initial
  | .write _ _ value :: _ => value
  | .read _ _ :: earlier => lastWritten initial earlier

def latch (initial : UInt32) : Peripheral where
  answer history _ _ := lastWritten initial history
  remembers := isWrite
  history := []

def read (peripheral : Peripheral) (location : UInt32) (size : AccessSize) :
    UInt32 × Peripheral :=
  (peripheral.answer peripheral.history location size, peripheral.record (.read location size))

def write (peripheral : Peripheral) (location value : UInt32) (size : AccessSize) : Peripheral :=
  peripheral.record (.write location size value)

end Peripheral

inductive MemoryDevice where
  | ram (memory : Ram)
  | rom (memory : Rom)
  | peripheral (range : AddressRange) (behaviour : Peripheral)

namespace MemoryDevice

def range : MemoryDevice → AddressRange
  | .ram memory => memory.range
  | .rom memory => memory.range
  | .peripheral range _ => range

def read (device : MemoryDevice) (offset : UInt32) (size : AccessSize) : UInt32 × MemoryDevice :=
  match device with
  | .ram memory => (memory.read offset size, .ram memory)
  | .rom memory => (memory.read offset size, .rom memory)
  | .peripheral range behaviour =>
    let (value, asked) := behaviour.read offset size
    (value, .peripheral range asked)

def write (device : MemoryDevice) (offset value : UInt32) (size : AccessSize) : MemoryDevice :=
  match device with
  | .ram memory => .ram (memory.write offset value size)
  | .rom memory => .rom memory
  | .peripheral range behaviour => .peripheral range (behaviour.write offset value size)

def writeEvents (device : MemoryDevice) (offset value : UInt32) : List Event :=
  match device with
  | .rom memory => [.log (.romWriteIgnored value (memory.range.start + offset))]
  | _ => []

def modifyRam (device : MemoryDevice) (change : Ram → Ram) : MemoryDevice :=
  match device with
  | .ram memory => .ram (change memory)
  | other => other

end MemoryDevice

structure PortDevice where
  ports : List UInt16
  peripheral : Peripheral

end RiscBoard
