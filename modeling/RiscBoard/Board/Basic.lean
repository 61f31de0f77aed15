import RiscBoard.Board.Layout
import RiscBoard.Core.Step

/-!
A board: one core, main memory, scratch memory for the BIOS, the BIOS itself if there is one, and
the port window. The core starts in the BIOS at address 0.
-/

namespace RiscBoard

structure BoardConfig where
  memoryBase : UInt32
  memorySize : UInt32
  /-- The contents of the BIOS; without one no read-only memory is attached. -/
  bios : Option ByteArray
  windowBase : UInt32

namespace BoardConfig

def standard : BoardConfig where
  memoryBase := 0x80000000
  memorySize := 0x00400000
  bios := none
  windowBase := 0x00040000

end BoardConfig

/-- A board. Main memory is the first device on the bus and the BIOS's memory the second one. -/
structure Board where
  memoryRange : AddressRange
  biosSize : Option Nat
  core : Core

namespace Board

def biosRomBase : UInt32 := 0

def biosRamBase : UInt32 := 0x00080000

def biosRamSize : Nat := 0x00010000

def memoryIndex : Nat := 0

def biosRamIndex : Nat := 1

def inRegion {α : Type} (region : Region) : Except InvalidBounds α → Except BoardError α
  | .ok made => .ok made
  | .error bounds => .error (.outOfBounds region bounds)

def createBios (image : Option ByteArray) : Except BoardError (Option Rom) :=
  match image with
  | none => .ok none
  | some image => (inRegion .biosRom (Rom.ofImage biosRomBase image)).map some

def layout (memory biosRam : Ram) (bios : Option Rom) (window : Option AddressRange) : Layout :=
  [(.mainMemory, memory.range), (.biosRam, biosRam.range)] ++
    (bios.map fun rom => (Region.biosRom, rom.range)).toList ++
    (window.map fun range => (Region.ioWindow, range)).toList

def create (config : BoardConfig) : Except BoardError (Traced Board) := do
  let memory ← inRegion .mainMemory (Ram.create config.memoryBase config.memorySize.toNat)
  let biosRam ← inRegion .biosRam (Ram.create biosRamBase biosRamSize)
  let bios ← createBios config.bios
  let bus ← inRegion .ioWindow (Bus.empty.mapWindow config.windowBase)
  match Layout.collision? [] (layout memory biosRam bios bus.window) with
  | some (region, other) => .error (.overlap region other)
  | none =>
    .ok do
      let bus ← bus.attachMemory (.ram memory)
      let bus ← bus.attachMemory (.ram biosRam)
      let bus ← match bios with
        | none => pure bus
        | some rom => bus.attachMemory (.rom rom)
      pure ⟨memory.range, bios.map Rom.size, Core.create biosRomBase bus⟩

def reset (board : Board) : Board :=
  let core := board.core.reset
  let bus := (core.bus.modifyRam memoryIndex Ram.reset).modifyRam biosRamIndex Ram.reset
  { board with core := { core with bus := bus } }

def attachPorts (board : Board) (device : PortDevice) : Traced Board := do
  let bus ← board.core.bus.attachPorts device
  pure { board with core := { board.core with bus := bus } }

/-- Changes the part of one memory of the bus that meets the `size` addresses from `start` on. The
change is given the ends of that part. -/
def changeDevice (bus : Bus) (index start size : Nat) (change : Nat → Nat → Ram → Ram) :
    Traced Bus :=
  match bus.memory[index]? with
  | some (.ram memory) =>
    let low := max start memory.range.start.toNat
    let high := min (start + size) memory.range.stop
    if high ≤ low then pure bus
    else do
      Traced.log (.bytesLoaded (high - low) low)
      pure (bus.modifyRam index (change low high))
  | _ => pure bus

/-- Changes the physical address space where the `size` addresses from `address` on meet main memory
or the BIOS's memory; bytes elsewhere are dropped. -/
def changePhysical (board : Board) (address : UInt32) (size : Nat)
    (change : Nat → Nat → Ram → Ram) : Traced Board := do
  let bus ← changeDevice board.core.bus memoryIndex address.toNat size change
  let bus ← changeDevice bus biosRamIndex address.toNat size change
  pure { board with core := { board.core with bus := bus } }

def loadPhysical (board : Board) (address : UInt32) (buffer : ByteArray) : Traced Board :=
  let start := address.toNat
  board.changePhysical address buffer.size fun low high memory =>
    memory.load (low - memory.range.start.toNat) (buffer.extract (low - start) (high - start))

def clearPhysical (board : Board) (address : UInt32) (size : Nat) : Traced Board :=
  board.changePhysical address size fun low high memory =>
    memory.clear (low - memory.range.start.toNat) (high - low)

def tick (board : Board) : Traced Board := do
  let core ← board.core.step
  pure { board with core := core }

end Board

end RiscBoard
