import Mathlib.Data.List.Basic
import RiscBoard.Proofs.Bus.Blank
import RiscBoard.Proofs.Core.Outcome

/-!
The order of devices on a bus. Where no address belongs to two devices, or to a device and to the
window, an access has one device to go to. So it does not matter which device was attached first, nor
whether the window is asked before the memories or after them.
-/

namespace RiscBoard

/-- The part of the address space that is asked first. -/
inductive Precedence where
  | window
  | memory

namespace Bus

def readFrom (bus : Bus) (first : Precedence) (address : UInt32) (size : AccessSize) :
    Traced (UInt32 × Bus) :=
  match first with
  | .window => bus.read address size
  | .memory =>
    if (bus.memoryOwner? address).isSome then bus.readMemory address size
    else bus.read address size

def writeFrom (bus : Bus) (first : Precedence) (address value : UInt32) (size : AccessSize) :
    Traced Bus :=
  match first with
  | .window => bus.write address value size
  | .memory =>
    if (bus.memoryOwner? address).isSome then bus.writeMemory address value size
    else bus.write address value size

def answer (bus : Bus) (first : Precedence) : BusRequest → Option UInt32 × Bus
  | .read physical size =>
    let (value, asked) := (bus.readFrom first physical size).value
    (some value, asked)
  | .write physical value size => (none, (bus.writeFrom first physical value size).value)

def answerAll (bus : Bus) (first : Precedence) : List BusRequest → List (Option UInt32) × Bus
  | [] => ([], bus)
  | request :: later =>
    let (found, next) := bus.answer first request
    let (answers, last) := next.answerAll first later
    (found :: answers, last)

structure Separated (bus : Bus) : Prop where
  memories : bus.memory.toList.Pairwise fun first second =>
    first.range.overlaps second.range = false
  window : ∀ window ∈ bus.window, ∀ device ∈ bus.memory.toList,
    device.range.overlaps window = false

/-- The same devices, of which the memories may be in another order. -/
structure Reorders (bus other : Bus) : Prop where
  window : other.window = bus.window
  ports : other.ports = bus.ports
  memory : other.memory.toList.Perm bus.memory.toList

section Separated

variable {bus other : Bus}

theorem Separated.of_blank (separated : bus.Separated) (same : other.blank = bus.blank) :
    other.Separated := by
  have window : other.window = bus.window := congrArg (·.window) same
  have ranges : other.memory.toList.map MemoryDevice.range =
      bus.memory.toList.map MemoryDevice.range := by
    have devices := congrArg (fun blank => blank.memory.toList.map MemoryDevice.range) same
    simpa only [blank, Array.toList_map, List.map_map, Function.comp_def,
      MemoryDevice.range_blank] using devices
  constructor
  · have pairs : (bus.memory.toList.map MemoryDevice.range).Pairwise fun first second =>
        first.overlaps second = false := List.pairwise_map.2 separated.memories
    rw [← ranges] at pairs
    exact List.pairwise_map.1 pairs
  · intro range isWindow device member
    rw [window] at isWindow
    have among : device.range ∈ other.memory.toList.map MemoryDevice.range :=
      List.mem_map_of_mem member
    rw [ranges] at among
    obtain ⟨twin, twinMember, sameRange⟩ := List.mem_map.1 among
    rw [← sameRange]
    exact separated.window range isWindow twin twinMember

theorem Separated.reorder (separated : bus.Separated) (reorders : bus.Reorders other) :
    other.Separated := by
  constructor
  · refine (reorders.memory.pairwise_iff ?_).2 separated.memories
    intro first second apart
    rwa [AddressRange.overlaps_comm]
  · intro range isWindow device member
    rw [reorders.window] at isWindow
    exact separated.window range isWindow device (reorders.memory.mem_iff.1 member)

theorem Separated.windowPort?_eq_none (separated : bus.Separated) {device : MemoryDevice}
    (member : device ∈ bus.memory.toList) {address : UInt32}
    (inside : device.range.contains address = true) : bus.windowPort? address = none := by
  unfold windowPort?
  cases isWindow : bus.window with
  | none => rfl
  | some window =>
    have apart := separated.window window isWindow device member
    have outside := AddressRange.contains_of_apart apart inside
    simp [AddressRange.offset?, outside]

theorem Separated.contains_iff (separated : bus.Separated) {address : UInt32} {index : Nat}
    {device : MemoryDevice} (placed : bus.memory[index]? = some device) :
    device.range.contains address = true ↔ bus.target? address = some index := by
  obtain ⟨isDevice, same⟩ := Array.getElem?_eq_some_iff.1 placed
  constructor
  · intro inside
    have member : device ∈ bus.memory.toList := Array.mem_toList_iff.2 (Array.mem_of_getElem? placed)
    rw [target?, separated.windowPort?_eq_none member inside, Array.findIdx?_eq_some_iff_getElem]
    refine ⟨isDevice, by rwa [same], fun earlier before => ?_⟩
    have apart := List.pairwise_iff_getElem.1 separated.memories earlier index
      (by simpa using Nat.lt_trans before isDevice) (by simpa using isDevice) before
    simp only [Array.getElem_toList, same] at apart
    rw [AddressRange.overlaps_comm] at apart
    simpa using AddressRange.contains_of_apart apart inside
  · intro goes
    unfold target? at goes
    split at goes
    next => cases goes
    next =>
      obtain ⟨_, inside, _⟩ := Array.findIdx?_eq_some_iff_getElem.1 goes
      rwa [same] at inside

def changedAt (address : UInt32) (change : UInt32 → MemoryDevice → MemoryDevice)
    (device : MemoryDevice) : MemoryDevice :=
  if device.range.contains address then change (address - device.range.start) device else device

theorem Separated.toList_memory (separated : bus.Separated) {address : UInt32}
    {change : UInt32 → MemoryDevice → MemoryDevice} {later : Bus}
    (changed : ∀ index : Nat, later.memory[index]? =
      if bus.target? address = some index then
        bus.memory[index]?.map fun device => change (address - device.range.start) device
      else bus.memory[index]?) :
    later.memory.toList = bus.memory.toList.map (changedAt address change) := by
  apply List.ext_getElem?
  intro index
  rw [List.getElem?_map, Array.getElem?_toList, Array.getElem?_toList, changed]
  cases placed : bus.memory[index]? with
  | none => simp
  | some device =>
    simp only [Option.map_some, changedAt, separated.contains_iff placed]
    split
    · rfl
    · rfl

theorem Separated.toList_read (separated : bus.Separated) (address : UInt32) (size : AccessSize) :
    (bus.read address size).value.2.memory.toList = bus.memory.toList.map
      (changedAt address fun offset device => (device.read offset size).2) :=
  separated.toList_memory (bus.getElem?_read address size)

theorem Separated.toList_write (separated : bus.Separated) (address value : UInt32)
    (size : AccessSize) :
    (bus.write address value size).value.memory.toList = bus.memory.toList.map
      (changedAt address fun offset device => device.write offset (size.truncate value) size) :=
  separated.toList_memory (bus.getElem?_write address value size)

end Separated

theorem value_readMemory (bus : Bus) (address : UInt32) (size : AccessSize) :
    (bus.readMemory address size).value.1 =
      ((bus.memory.toList.find? (·.range.contains address)).map fun device =>
        size.truncate (device.read (address - device.range.start) size).1).getD openValue := by
  rw [Array.find?_toList, Array.find?_eq_map_findFinIdx?_getElem, readMemory, memoryOwner?]
  cases bus.memory.findFinIdx? (·.range.contains address) with
  | none => rfl
  | some owner => rfl

@[simp] theorem ports_readMemory (bus : Bus) (address : UInt32) (size : AccessSize) :
    (bus.readMemory address size).value.2.ports = bus.ports := by
  unfold readMemory
  split
  · rfl
  · rfl

@[simp] theorem ports_writeMemory (bus : Bus) (address value : UInt32) (size : AccessSize) :
    (bus.writeMemory address value size).value.ports = bus.ports := by
  unfold writeMemory
  split
  · rfl
  · rfl

theorem find?_eq_of_perm {fits : MemoryDevice → Bool} {devices others : List MemoryDevice}
    (order : others.Perm devices)
    (single : devices.Pairwise fun first second => fits first = true → fits second = false) :
    others.find? fits = devices.find? fits := by
  have same := order.filter fits
  have alone : (devices.filter fits).Pairwise fun first second =>
      fits first = true → fits second = false := single.sublist List.filter_sublist
  have allFit : ∀ device ∈ devices.filter fits, fits device = true :=
    fun device member => (List.mem_filter.1 member).2
  rw [← List.head?_filter, ← List.head?_filter]
  generalize devices.filter fits = fitting at same alone allFit ⊢
  cases fitting with
  | nil => rw [List.perm_nil.1 same]
  | cons first later =>
    cases later with
    | nil => rw [List.perm_singleton.1 same]
    | cons second later =>
      have secondFits := allFit second (List.mem_cons_of_mem first List.mem_cons_self)
      have unfit := (List.pairwise_cons.1 alone).1 second List.mem_cons_self
        (allFit first List.mem_cons_self)
      rw [unfit] at secondFits
      cases secondFits

section Reorders

variable {bus other : Bus}

theorem Reorders.windowPort?_eq (reorders : bus.Reorders other) (address : UInt32) :
    other.windowPort? address = bus.windowPort? address := by
  rw [windowPort?, windowPort?, reorders.window]

/-- What a port answers, and what becomes of the port devices, is nothing to the memories. -/
theorem Reorders.readPort (reorders : bus.Reorders other) (port : UInt16) (size : AccessSize) :
    (other.readPort port size).value.1 = (bus.readPort port size).value.1 ∧
      (other.readPort port size).value.2.ports = (bus.readPort port size).value.2.ports := by
  obtain ⟨window, ports, memory⟩ := other
  obtain ⟨sameWindow, samePorts, order⟩ := reorders
  simp only at samePorts
  subst samePorts
  unfold Bus.readPort portOwner?
  dsimp only
  split
  · exact ⟨rfl, rfl⟩
  · exact ⟨rfl, rfl⟩

theorem Reorders.writePort (reorders : bus.Reorders other) (port : UInt16) (value : UInt32)
    (size : AccessSize) :
    (other.writePort port value size).value.ports = (bus.writePort port value size).value.ports := by
  obtain ⟨window, ports, memory⟩ := other
  obtain ⟨sameWindow, samePorts, order⟩ := reorders
  simp only at samePorts
  subst samePorts
  unfold Bus.writePort portOwner?
  dsimp only
  split
  · rfl
  · rfl

theorem Reorders.read (reorders : bus.Reorders other) (separated : bus.Separated)
    (address : UInt32) (size : AccessSize) :
    (other.read address size).value.1 = (bus.read address size).value.1 ∧
      (bus.read address size).value.2.Reorders (other.read address size).value.2 := by
  have order := reorders.memory.map
    (changedAt address fun offset device => (device.read offset size).2)
  rw [← separated.toList_read, ← (separated.reorder reorders).toList_read] at order
  have window : (other.read address size).value.2.window = (bus.read address size).value.2.window := by
    rw [window_read, window_read, reorders.window]
  have samePort := reorders.windowPort?_eq address
  cases port : bus.windowPort? address with
  | some number =>
    rw [port] at samePort
    obtain ⟨value, ports⟩ := reorders.readPort number size
    refine ⟨?_, window, ?_, order⟩
    · simpa only [Bus.read, port, samePort] using value
    · simpa only [Bus.read, port, samePort] using ports
  | none =>
    rw [port] at samePort
    refine ⟨?_, window, ?_, order⟩
    · simp only [Bus.read, port, samePort, value_readMemory]
      rw [find?_eq_of_perm reorders.memory]
      exact separated.memories.imp fun apart => AddressRange.contains_of_apart apart
    · simp only [Bus.read, port, samePort, ports_readMemory, reorders.ports]

theorem Reorders.write (reorders : bus.Reorders other) (separated : bus.Separated)
    (address value : UInt32) (size : AccessSize) :
    (bus.write address value size).value.Reorders (other.write address value size).value := by
  have order := reorders.memory.map
    (changedAt address fun offset device => device.write offset (size.truncate value) size)
  rw [← separated.toList_write, ← (separated.reorder reorders).toList_write] at order
  have window : (other.write address value size).value.window =
      (bus.write address value size).value.window := by
    rw [window_write, window_write, reorders.window]
  have samePort := reorders.windowPort?_eq address
  refine ⟨window, ?_, order⟩
  cases port : bus.windowPort? address with
  | some number =>
    rw [port] at samePort
    simpa only [Bus.write, port, samePort] using reorders.writePort number value size
  | none =>
    rw [port] at samePort
    simp only [Bus.write, port, samePort, ports_writeMemory, reorders.ports]

end Reorders

section Precedence

variable {bus : Bus}

theorem Separated.windowPort?_of_owner (separated : bus.Separated) {address : UInt32}
    (owned : (bus.memoryOwner? address).isSome = true) : bus.windowPort? address = none := by
  obtain ⟨owner, isOwner⟩ := Option.isSome_iff_exists.1 owned
  have inside := (Array.findFinIdx?_eq_some_iff.1 isOwner).1
  exact separated.windowPort?_eq_none (Array.mem_toList_iff.2 (Array.getElem_mem owner.isLt)) inside

/-- Where the memories and the window are apart, it does not matter which is asked first. -/
theorem Separated.readFrom_eq (separated : bus.Separated) (first : Precedence) (address : UInt32)
    (size : AccessSize) : bus.readFrom first address size = bus.read address size := by
  cases first with
  | window => rfl
  | memory =>
    simp only [readFrom]
    split
    next owned => rw [Bus.read, separated.windowPort?_of_owner owned]
    next => rfl

theorem Separated.writeFrom_eq (separated : bus.Separated) (first : Precedence)
    (address value : UInt32) (size : AccessSize) :
    bus.writeFrom first address value size = bus.write address value size := by
  cases first with
  | window => rfl
  | memory =>
    simp only [writeFrom]
    split
    next owned => rw [Bus.write, separated.windowPort?_of_owner owned]
    next => rfl

end Precedence

section Answers

variable {bus other : Bus}

theorem Reorders.answer (reorders : bus.Reorders other) (separated : bus.Separated)
    (first : Precedence) (request : BusRequest) :
    (other.answer first request).1 = (bus.answer .window request).1 ∧
      (bus.answer .window request).2.Reorders (other.answer first request).2 ∧
      (bus.answer .window request).2.blank = bus.blank := by
  have otherSeparated := separated.reorder reorders
  cases request with
  | read physical size =>
    obtain ⟨value, same⟩ := reorders.read separated physical size
    simp only [Bus.answer, otherSeparated.readFrom_eq, separated.readFrom_eq]
    exact ⟨congrArg some value, same, blank_read ..⟩
  | write physical value size =>
    simp only [Bus.answer, otherSeparated.writeFrom_eq, separated.writeFrom_eq]
    exact ⟨trivial, reorders.write separated physical value size, blank_write ..⟩

/-- All requests are served alike, and what they find and leave does not tell the order. -/
theorem Reorders.answerAll (reorders : bus.Reorders other) (separated : bus.Separated)
    (first : Precedence) (requests : List BusRequest) :
    (other.answerAll first requests).1 = (bus.answerAll .window requests).1 ∧
      (bus.answerAll .window requests).2.Reorders (other.answerAll first requests).2 ∧
      (bus.answerAll .window requests).2.blank = bus.blank := by
  induction requests generalizing bus other with
  | nil => exact ⟨rfl, reorders, rfl⟩
  | cons request later ih =>
    obtain ⟨found, next, same⟩ := reorders.answer separated first request
    obtain ⟨answers, last, lastSame⟩ := ih next (separated.of_blank same)
    simp only [Bus.answerAll, found, answers]
    exact ⟨trivial, last, lastSame.trans same⟩

end Answers

end Bus

end RiscBoard
