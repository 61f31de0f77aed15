import RiscBoard.Board.Basic

/-!
How a board is arranged. Main memory and the BIOS's memory are the first two devices, and neither the
BIOS's memory nor the port window has an address in common with main memory. A new board is arranged
in this way, and writing into its physical memory changes the bytes of the two memories alone.
-/

namespace RiscBoard

namespace Layout

/-- Regions among which no collision is found have no address in common. -/
theorem pairwise_of_collision? {earlier later : Layout} (apart : earlier.Pairwise fun first second =>
      second.2.overlaps first.2 = false)
    (free : collision? earlier later = none) :
    (earlier ++ later).Pairwise fun first second => second.2.overlaps first.2 = false := by
  induction later generalizing earlier with
  | nil => rwa [List.append_nil]
  | cons next later ih =>
    obtain ⟨region, range⟩ := next
    rw [collision?] at free
    split at free
    next => cases free
    next none =>
      rw [List.append_cons]
      refine ih (List.pairwise_append.2 ⟨apart, List.pairwise_singleton .., ?_⟩) free
      intro first member second same
      rw [List.mem_singleton.1 same]
      exact Bool.eq_false_iff.2 (List.find?_eq_none.1 none first member)

end Layout

namespace Ram

/-- A memory whose part among the `size` addresses from `start` on is changed. The change is given
the ends of that part. -/
def changeWithin (memory : Ram) (start size : Nat) (change : Nat → Nat → Ram → Ram) : Ram :=
  let low := max start memory.range.start.toNat
  let high := min (start + size) memory.range.stop
  if high ≤ low then memory else change low high memory

theorem range_changeWithin {change : Nat → Nat → Ram → Ram}
    (keeps : ∀ low high memory, (change low high memory).range = memory.range) (memory : Ram)
    (start size : Nat) : (memory.changeWithin start size change).range = memory.range := by
  unfold changeWithin
  dsimp only
  split
  · rfl
  · exact keeps _ _ memory

theorem changeWithin_zero (memory : Ram) (start : Nat) (change : Nat → Nat → Ram → Ram) :
    memory.changeWithin start 0 change = memory :=
  if_pos (by omega)

theorem changeWithin_of_inside (memory : Ram) {start size : Nat}
    (change : Nat → Nat → Ram → Ram) (above : memory.range.start.toNat ≤ start)
    (below : start + size ≤ memory.range.stop) (some : 0 < size) :
    memory.changeWithin start size change = change start (start + size) memory := by
  unfold changeWithin
  rw [Nat.max_eq_left above, Nat.min_eq_left below]
  exact if_neg (by omega)

theorem range_and_reset_of_create {base : UInt32} {size : Nat} {memory : Ram}
    (made : create base size = .ok memory) :
    AddressRange.ofSize base size = .ok memory.range ∧ memory.reset = memory := by
  unfold create at made
  cases bounds : AddressRange.ofSize base size with
  | error _ => rw [bounds] at made; cases made
  | ok range =>
    rw [bounds] at made
    rw [← Except.ok.inj made]
    exact ⟨rfl, rfl⟩

end Ram

namespace MemoryDevice

@[simp] theorem modifyRam_id (device : MemoryDevice) :
    device.modifyRam (fun memory => memory) = device := by
  cases device with
  | ram | rom | peripheral => rfl

end MemoryDevice

namespace Bus

theorem eq_of_memory {bus other : Bus} (window : bus.window = other.window)
    (ports : bus.ports = other.ports)
    (memory : ∀ index : Nat, bus.memory[index]? = other.memory[index]?) : bus = other := by
  obtain ⟨busWindow, busPorts, busMemory⟩ := bus
  obtain ⟨otherWindow, otherPorts, otherMemory⟩ := other
  simp only [mk.injEq]
  exact ⟨window, ports, Array.ext_getElem? memory⟩

theorem getElem?_modifyRam (bus : Bus) (index : Nat) (change : Ram → Ram) (other : Nat) :
    (bus.modifyRam index change).memory[other]? =
      if index = other then bus.memory[other]?.map (·.modifyRam change) else bus.memory[other]? :=
  Array.getElem?_modify

theorem modifyRam_congr {bus : Bus} {index : Nat} {first second : Ram → Ram}
    (same : ∀ memory, bus.memory[index]? = some (.ram memory) → first memory = second memory) :
    bus.modifyRam index first = bus.modifyRam index second := by
  refine eq_of_memory rfl rfl fun other => ?_
  rw [getElem?_modifyRam, getElem?_modifyRam]
  split
  next here =>
    subst here
    cases placed : bus.memory[index]? with
    | none => rfl
    | some device =>
      cases device with
      | ram memory =>
        have changed : first memory = second memory := same memory placed
        simp only [Option.map_some, MemoryDevice.modifyRam, changed]
      | rom | peripheral => rfl
  next => rfl

theorem modifyRam_of_unchanged {bus : Bus} {index : Nat} {change : Ram → Ram}
    (same : ∀ memory, bus.memory[index]? = some (.ram memory) → change memory = memory) :
    bus.modifyRam index change = bus := by
  rw [modifyRam_congr same]
  refine eq_of_memory rfl rfl fun other => ?_
  rw [getElem?_modifyRam]
  split
  next => simp
  next => rfl

end Bus

namespace Board

structure Arranged (board : Board) (memory biosRam : Ram) (window : AddressRange) : Prop where
  memoryFirst : board.core.bus.memory[memoryIndex]? = some (.ram memory)
  biosRamSecond : board.core.bus.memory[biosRamIndex]? = some (.ram biosRam)
  windowOpen : board.core.bus.window = some window
  windowWhole : window.size = Bus.windowSize
  memoryRange : memory.range = board.memoryRange
  biosRamApart : memory.range.overlaps biosRam.range = false
  windowApart : memory.range.overlaps window = false

@[simp] theorem memoryRange_changePhysical (board : Board) (address : UInt32) (size : Nat)
    (change : Nat → Nat → Ram → Ram) :
    (board.changePhysical address size change).value.memoryRange = board.memoryRange := rfl

@[simp] theorem mmu_changePhysical (board : Board) (address : UInt32) (size : Nat)
    (change : Nat → Nat → Ram → Ram) :
    (board.changePhysical address size change).value.core.mmu = board.core.mmu := rfl

/-- A change of a device is one of a memory, where that has the addresses. -/
theorem value_changeDevice_eq (bus : Bus) (index start size : Nat)
    (change : Nat → Nat → Ram → Ram) :
    (changeDevice bus index start size change).value =
      bus.modifyRam index fun memory => memory.changeWithin start size change := by
  unfold changeDevice
  split
  next memory placed =>
    dsimp only
    split
    next nothing =>
      refine (Bus.modifyRam_of_unchanged fun found isFound => ?_).symm
      cases Option.some.inj (placed.symm.trans isFound)
      exact if_pos nothing
    next some =>
      refine Bus.modifyRam_congr fun found isFound => ?_
      cases Option.some.inj (placed.symm.trans isFound)
      exact (if_neg some).symm
  next noMemory =>
    exact (Bus.modifyRam_of_unchanged fun found isFound => absurd isFound (noMemory found)).symm

theorem value_changeDevice {bus : Bus} {index : Nat} {memory : Ram}
    (placed : bus.memory[index]? = some (.ram memory)) (start size : Nat)
    (change : Nat → Nat → Ram → Ram) :
    (changeDevice bus index start size change).value.window = bus.window ∧
      ∀ other, (changeDevice bus index start size change).value.memory[other]? =
        if index = other then some (.ram (memory.changeWithin start size change))
        else bus.memory[other]? := by
  rw [value_changeDevice_eq]
  refine ⟨rfl, fun other => ?_⟩
  rw [Bus.getElem?_modifyRam]
  split
  next same =>
    rw [← same, placed]
    rfl
  next => rfl

/-- A change of physical memory changes the two memories, each where it has the addresses. -/
theorem Arranged.changePhysical {board : Board} {memory biosRam : Ram} {window : AddressRange}
    (arranged : board.Arranged memory biosRam window) (address : UInt32) (size : Nat)
    {change : Nat → Nat → Ram → Ram}
    (keeps : ∀ low high memory, (change low high memory).range = memory.range) :
    (board.changePhysical address size change).value.Arranged
      (memory.changeWithin address.toNat size change)
      (biosRam.changeWithin address.toNat size change) window := by
  have first := value_changeDevice arranged.memoryFirst address.toNat size change
  have second := value_changeDevice ((first.2 biosRamIndex).trans arranged.biosRamSecond)
    address.toNat size change
  have sameRange := Ram.range_changeWithin keeps memory address.toNat size
  exact
    { memoryFirst := (second.2 memoryIndex).trans (first.2 memoryIndex)
      biosRamSecond := second.2 biosRamIndex
      windowOpen := (second.1.trans first.1).trans arranged.windowOpen
      windowWhole := arranged.windowWhole
      memoryRange := sameRange.trans arranged.memoryRange
      biosRamApart := by
        rw [sameRange, Ram.range_changeWithin keeps biosRam]
        exact arranged.biosRamApart
      windowApart := by rw [sameRange]; exact arranged.windowApart }

/-- A board as it is created, or after its host wrote into its memory. -/
inductive Fresh : Board → Prop
  | created {config : BoardConfig} {made : Traced Board} (accepted : create config = .ok made) :
      Fresh made.value
  | loaded {board : Board} (fresh : Fresh board) (address : UInt32) (buffer : ByteArray) :
      Fresh (board.loadPhysical address buffer).value

theorem exists_of_bind {ε α β : Type} {first : Except ε α} {next : α → Except ε β} {result : β}
    (succeeds : first >>= next = .ok result) :
    ∃ value, first = .ok value ∧ next value = .ok result := by
  cases first with
  | error _ => cases succeeds
  | ok value => exact ⟨value, rfl, succeeds⟩

theorem ok_of_inRegion {α : Type} {region : Region} {made : Except InvalidBounds α} {value : α}
    (accepted : inRegion region made = .ok value) : made = .ok value := by
  cases made with
  | error _ => cases accepted
  | ok _ => exact congrArg Except.ok (Except.ok.inj accepted)

/-- What is tried out on a new board has succeeded in creating it. -/
theorem exists_of_any {config : BoardConfig} {holds : Traced Board → Bool}
    (succeeds : (create config).toOption.any holds = true) :
    ∃ made, create config = .ok made ∧ holds made = true := by
  cases accepted : create config with
  | error _ =>
    rw [accepted] at succeeds
    cases succeeds
  | ok made =>
    rw [accepted] at succeeds
    exact ⟨made, rfl, succeeds⟩

theorem window_of_mapWindow {base : UInt32} {bus : Bus}
    (mapped : Bus.empty.mapWindow base = .ok bus) :
    ∃ window, AddressRange.ofSize base Bus.windowSize = .ok window ∧
      bus = ⟨some window, #[], #[]⟩ := by
  unfold Bus.mapWindow at mapped
  cases made : AddressRange.ofSize base Bus.windowSize with
  | error _ => rw [made] at mapped; cases mapped
  | ok range =>
    rw [made] at mapped
    exact ⟨range, rfl, (Except.ok.inj mapped).symm⟩

def devices (memory biosRam : Ram) (bios : Option Rom) : List MemoryDevice :=
  [.ram memory, .ram biosRam] ++ (bios.map MemoryDevice.rom).toList

structure Assembled (config : BoardConfig) (board : Board) (memory biosRam : Ram)
    (bios : Option Rom) (window : AddressRange) : Prop where
  memoryMade : Ram.create config.memoryBase config.memorySize.toNat = .ok memory
  biosRamMade : Ram.create biosRamBase biosRamSize = .ok biosRam
  biosMade : createBios config.bios = .ok bios
  windowMade : AddressRange.ofSize config.windowBase Bus.windowSize = .ok window
  apart : (layout memory biosRam bios (some window)).Pairwise fun first second =>
    second.2.overlaps first.2 = false
  together : board = ⟨memory.range, bios.map Rom.size, Core.create biosRomBase
    ⟨some window, #[], (devices memory biosRam bios).toArray⟩⟩

theorem assembled_of_create {config : BoardConfig} {made : Traced Board}
    (accepted : create config = .ok made) :
    ∃ memory biosRam bios window, Assembled config made.value memory biosRam bios window := by
  obtain ⟨memory, memoryMade, accepted⟩ := exists_of_bind accepted
  obtain ⟨biosRam, biosRamMade, accepted⟩ := exists_of_bind accepted
  obtain ⟨bios, biosMade, accepted⟩ := exists_of_bind accepted
  obtain ⟨bus, mapped, accepted⟩ := exists_of_bind accepted
  obtain ⟨window, windowMade, rfl⟩ := window_of_mapWindow (ok_of_inRegion mapped)
  split at accepted
  next => cases accepted
  next free =>
    have apart := Layout.pairwise_of_collision? List.Pairwise.nil free
    refine ⟨memory, biosRam, bios, window, ok_of_inRegion memoryMade, ok_of_inRegion biosRamMade,
      biosMade, windowMade, apart, ?_⟩
    rw [← Except.ok.inj accepted]
    cases bios with
    | none | some rom => rfl

theorem Assembled.arranged {config : BoardConfig} {board : Board} {memory biosRam : Ram}
    {bios : Option Rom} {window : AddressRange}
    (assembled : Assembled config board memory biosRam bios window) :
    board.Arranged memory biosRam window := by
  have apart := assembled.apart
  obtain ⟨start, stop⟩ := AddressRange.start_of_ofBounds assembled.windowMade
  rw [assembled.together]
  refine ⟨rfl, rfl, rfl, ?_, rfl, ?_, ?_⟩
  · rw [AddressRange.size, start, stop]
    omega
  · rw [AddressRange.overlaps_comm]
    cases bios <;> simp_all [layout]
  · rw [AddressRange.overlaps_comm]
    cases bios <;> simp_all [layout]

theorem arranged_of_create {config : BoardConfig} {made : Traced Board}
    (accepted : create config = .ok made) :
    made.value.core.mmu = .cleared ∧
      ∃ memory biosRam window, made.value.Arranged memory biosRam window := by
  obtain ⟨memory, biosRam, bios, window, assembled⟩ := assembled_of_create accepted
  refine ⟨?_, memory, biosRam, window, assembled.arranged⟩
  rw [assembled.together]
  rfl

/-- Before anything is loaded virtual memory is as after a reset. -/
theorem Fresh.arranged {board : Board} (fresh : board.Fresh) :
    board.core.mmu = .cleared ∧
      ∃ memory biosRam window, board.Arranged memory biosRam window := by
  induction fresh with
  | created accepted => exact arranged_of_create accepted
  | loaded fresh address buffer ih =>
    obtain ⟨cleared, memory, biosRam, window, arranged⟩ := ih
    unfold loadPhysical
    exact ⟨cleared, _, _, window,
      arranged.changePhysical address buffer.size fun _ _ _ => Ram.range_load ..⟩

end Board

end RiscBoard
