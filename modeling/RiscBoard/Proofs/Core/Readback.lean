import RiscBoard.Proofs.Bus.Ownership
import RiscBoard.Proofs.Core.Effect
import RiscBoard.Proofs.Mmu.Insertion

/-!
Loading what was stored. A value that is stored in main memory is found again, cut to the size of the
access, at every virtual address that stands for the same physical one, aligned or not. Accesses of any
other size and place find the stored bytes where they overlap the store, and else the bytes from
before it (`load_after_store`).
-/

namespace RiscBoard

/-- What was read at an address before and after a store: the stored bytes take the places of old ones,
as far as the two accesses overlap. Places are unbounded numbers. -/
structure Overlaid (storedAt value : UInt32) (size : AccessSize) (address : UInt32)
    (readSize : AccessSize) (old new : UInt32) : Prop where
  stored : ∀ distance < readSize.bytes, storedAt.toNat ≤ address.toNat + distance →
    address.toNat + distance < storedAt.toNat + size.bytes →
    Bytes.wordByte new distance =
      Bytes.wordByte value (address.toNat + distance - storedAt.toNat)
  kept : ∀ distance < readSize.bytes,
    (address.toNat + distance < storedAt.toNat ∨
      storedAt.toNat + size.bytes ≤ address.toNat + distance) →
    Bytes.wordByte new distance = Bytes.wordByte old distance
  narrow : readSize.cut new = new

theorem Overlaid.eq_cut {address value old new : UInt32} {size : AccessSize}
    (overlaid : Overlaid address value size address size old new) : new = size.cut value := by
  rw [← overlaid.narrow]
  refine Bytes.cut_eq_of_wordByte fun distance inside => ?_
  have byte := overlaid.stored distance inside (by omega) (by omega)
  rwa [Nat.add_sub_cancel_left] at byte

theorem Contents.overlaid_write (contents : Contents) {start : Nat} {storedAt address : UInt32}
    (value : UInt32) {size : AccessSize} (readSize : AccessSize) (above : start ≤ storedAt.toNat)
    (readAbove : start ≤ address.toNat)
    (room : storedAt.toNat - start + size.bytes ≤ contents.size) :
    Overlaid storedAt value size address readSize
      (contents.read (address.toNat - start) readSize)
      ((contents.write (storedAt.toNat - start) (size.cut value) size).read
        (address.toNat - start) readSize) where
  stored distance inside after before := by
    have within : storedAt.toNat - start ≤ address.toNat - start + distance ∧
        address.toNat - start + distance < storedAt.toNat - start + size.bytes ∧
          address.toNat - start + distance < contents.size := by omega
    have place : address.toNat - start + distance - (storedAt.toNat - start) =
        address.toNat + distance - storedAt.toNat := by omega
    rw [Contents.read, Bytes.wordByte_value _ _ _ inside, byteAt_write, if_pos within, place]
    exact Bytes.wordByte_cut value (by omega)
  kept distance inside apart := by
    have outside : ¬ (storedAt.toNat - start ≤ address.toNat - start + distance ∧
        address.toNat - start + distance < storedAt.toNat - start + size.bytes ∧
          address.toNat - start + distance < contents.size) := by omega
    rw [Contents.read, Contents.read, Bytes.wordByte_value _ _ _ inside,
      Bytes.wordByte_value _ _ _ inside, byteAt_write, if_neg outside]
  narrow := Bytes.cut_value ..

namespace Bus

theorem FirstOwner.setIfInBounds {Device : Type} {devices : Array Device} {owns : Device → Prop}
    {index : Nat} {device changed : Device} (owner : FirstOwner devices owns index device)
    (has : owns changed) :
    FirstOwner (devices.setIfInBounds index changed) owns index changed := by
  obtain ⟨inside, -⟩ := Array.getElem?_eq_some_iff.1 owner.placed
  refine ⟨?_, has, fun earlier before other placed => ?_⟩
  · rw [Array.getElem?_setIfInBounds_self_of_lt inside]
  · rw [Array.getElem?_setIfInBounds_ne (Nat.ne_of_gt before)] at placed
    exact owner.first earlier before other placed

/-- The address goes to this memory: it is not in the port window, and the memory is its owner. -/
structure GoesToRam (bus : Bus) (address : UInt32) (index : Nat) (memory : Ram) : Prop where
  outside : ∀ window ∈ bus.window, ¬ window.Holds address
  owner : bus.OwnsAddress address index (.ram memory)

namespace GoesToRam

variable {bus : Bus} {address : UInt32} {index : Nat} {memory : Ram}

theorem value_read (goes : bus.GoesToRam address index memory) (size : AccessSize) :
    (bus.read address size).value =
      (memory.contents.read (address.toNat - memory.range.start.toNat) size, bus) := by
  obtain ⟨offset, isOffset, -, read, -⟩ :=
    (memoryServed (windowPort?_of_outside goes.outside) 0 size).owned index _ goes.owner
  obtain ⟨inside, same⟩ := Array.getElem?_eq_some_iff.1 goes.owner.placed
  have unchanged : bus.memory.setIfInBounds index (.ram memory) = bus.memory := by
    rw [← same, Array.setIfInBounds_def, dif_pos inside, Array.set_getElem_self]
  have number : size.cut (memory.contents.read offset.toNat size) =
      memory.contents.read offset.toNat size := Bytes.cut_value ..
  rw [read]
  change (size.cut (memory.contents.read offset.toNat size),
    { bus with memory := bus.memory.setIfInBounds index (.ram memory) }) = _
  rw [unchanged, number, isOffset]
  rfl

/-- A write leaves a bus where the address goes to the written memory. So do all addresses that went to
the memory before. -/
theorem value_write (goes : bus.GoesToRam address index memory) (value : UInt32)
    (size : AccessSize) :
    ∃ written : Ram, written.range = memory.range ∧
      written.contents = memory.contents.write (address.toNat - memory.range.start.toNat)
        (size.cut value) size ∧
      ∀ other, bus.GoesToRam other index memory →
        (bus.write address value size).value.GoesToRam other index written := by
  obtain ⟨offset, isOffset, -, -, write, -⟩ :=
    (memoryServed (windowPort?_of_outside goes.outside) value size).owned index _ goes.owner
  refine ⟨memory.write offset (size.cut value) size, Ram.range_write .., ?_, ?_⟩
  · rw [Ram.contents_write, isOffset]
    rfl
  · intro other otherGoes
    rw [write]
    exact ⟨otherGoes.outside, FirstOwner.setIfInBounds otherGoes.owner otherGoes.owner.has⟩

theorem overlaid (goes : bus.GoesToRam address index memory) (value : UInt32) {size : AccessSize}
    (room : address.toNat + size.bytes ≤ memory.range.stop) {other : UInt32}
    (otherGoes : bus.GoesToRam other index memory) (readSize : AccessSize) :
    Overlaid address value size other readSize (bus.read other readSize).value.1
      ((bus.write address value size).value.read other readSize).value.1 := by
  obtain ⟨written, range, contents, later⟩ := goes.value_write value size
  have above : memory.range.start.toNat ≤ address.toNat := goes.owner.has.1
  have fits : address.toNat - memory.range.start.toNat + size.bytes ≤ memory.contents.size := by
    rw [memory.size_eq, AddressRange.size]
    omega
  rw [otherGoes.value_read, (later other otherGoes).value_read, range, contents]
  exact memory.contents.overlaid_write value readSize above otherGoes.owner.has.1 fits

end GoesToRam

end Bus

namespace Core

/-- A value was stored at one virtual address, by the host or by a program, and is found at another
one: the host reads it there, and programs load it into any register. -/
structure FoundAgain (core stored : Core) (size : AccessSize) (value storedAt loadedAt : UInt32) :
    Prop where
  read : (stored.readVirtual loadedAt size).value.1 = size.cut value
  store : ∀ source address, core.registers.get source = value →
    core.effectiveAddress address = storedAt →
    (core.execute (.store size source address)).value = stored.completed
  load : ∀ dest address, stored.effectiveAddress address = loadedAt →
    (stored.execute (.load size dest address)).value.fault = none ∧
      (stored.execute (.load size dest address)).value.core.registers =
        core.registers.set dest (size.cut value)

section Virtual

variable {core : Core} {size : AccessSize} {value address physical : UInt32}

theorem value_writeVirtual
    (translated : core.mmu.translate address size .write = .ok physical) :
    (core.writeVirtual address value size).value =
      { core with bus := (core.bus.write physical value size).value } := by
  rw [writeVirtual, translated]
  rfl

theorem value_readVirtual (translated : core.mmu.translate address size .read = .ok physical) :
    (core.readVirtual address size).value.1 = (core.bus.read physical size).value.1 := by
  rw [readVirtual, translated]
  rfl

theorem value_execute_store {source : Register} {operand : Address}
    (translated : core.mmu.translate (core.effectiveAddress operand) size .write = .ok physical) :
    (core.execute (.store size source operand)).value =
      Core.completed
        { core with bus := (core.bus.write physical (core.registers.get source) size).value } := by
  rw [execute, executeStore, translated]
  rfl

theorem value_execute_load {dest : Register} {operand : Address}
    (translated : core.mmu.translate (core.effectiveAddress operand) size .read = .ok physical) :
    (core.execute (.load size dest operand)).value.fault = none ∧
      (core.execute (.load size dest operand)).value.core.registers =
        core.registers.set dest (core.bus.read physical size).value.1 := by
  rw [execute, executeLoad, translated]
  simp only [deliver, Traced.value_bind, Traced.value_pure, value_readPhysical,
    value_writeRegister, completed, and_self]

end Virtual

/-- A value that is stored in memory through one virtual address is loaded through any other one that
stands for the same physical address, cut to the size, and every read of the same memory finds the old
bytes with the stored ones over them. -/
theorem load_after_store (core : Core) (value : UInt32) {size : AccessSize}
    {storedAt loadedAt physical : UInt32} {index : Nat} {memory : Ram}
    (toStore : core.mmu.translate storedAt size .write = .ok physical)
    (toLoad : core.mmu.translate loadedAt size .read = .ok physical)
    (goes : core.bus.GoesToRam physical index memory)
    (room : physical.toNat + size.bytes ≤ memory.range.stop) :
    let stored := (core.writeVirtual storedAt value size).value
    core.FoundAgain stored size value storedAt loadedAt ∧
      ∀ address, core.bus.GoesToRam address index memory → ∀ readSize,
        Overlaid physical value size address readSize (core.bus.read address readSize).value.1
          (stored.bus.read address readSize).value.1 := by
  intro stored
  have is : stored = { core with bus := (core.bus.write physical value size).value } :=
    value_writeVirtual toStore
  have mmu : stored.mmu = core.mmu := by rw [is]
  have registers : stored.registers = core.registers := by rw [is]
  have bus : stored.bus = (core.bus.write physical value size).value := by rw [is]
  have found : (stored.bus.read physical size).value.1 = size.cut value := by
    rw [bus]
    exact (goes.overlaid value room goes size).eq_cut
  rw [← mmu] at toLoad
  refine ⟨⟨?_, ?_, ?_⟩, fun address other readSize => ?_⟩
  · rw [value_readVirtual toLoad, found]
  · rintro source address rfl rfl
    rw [value_execute_store toStore, is]
  · rintro dest address rfl
    rw [← found, ← registers]
    exact value_execute_load toLoad
  · rw [bus]
    exact goes.overlaid value room other readSize

def aliasedMemory : Ram :=
  let range : AddressRange := ⟨0x100, 0x200, by decide, by decide⟩
  ⟨range, .zeros range.size, rfl⟩

/-- A core with this memory before a larger device, and two entries that have part of the memory at
different virtual addresses: one for writing, one for reading. -/
def aliased : Core :=
  let behind := MemoryDevice.peripheral ⟨0, 0x1000, by decide, by decide⟩ (.constant 0)
  let table := MappingTable.ofList [⟨0x100, 0x2000, 0x100, 2⟩, ⟨0x80, 0x5000, 0x200, 4⟩]
  { create 0 ⟨none, #[], #[.ram aliasedMemory, behind]⟩ with
    mmu := { Mmu.cleared with control := ⟨1⟩ }.setActiveTable table }

def aliasedAfter : Core := (aliased.writeVirtual 0x2003 0x12345678 .short).value

theorem aliased_load_after_store :
    aliased.mmu.translate 0x2003 .short .write = .ok 0x103 ∧
      aliased.mmu.translate 0x5083 .short .read = .ok 0x103 ∧
      (aliasedAfter.readVirtual 0x5083 .short).value.1 = 0x5678 ∧
      Bytes.wordByte (aliasedAfter.bus.read 0x102 .long).value.1 2 = 0x56 := by
  have toStore : aliased.mmu.translate 0x2003 .short .write = .ok 0x103 := by
    have found : aliased.mmu.activeTable.lookup? 0x2003 = some ⟨0x100, 0x2000, 0x100, 2⟩ := by
      decide +kernel
    rw [Mmu.translate, Mmu.mapped, found]
    rfl
  have toLoad : aliased.mmu.translate 0x5083 .short .read = .ok 0x103 := by
    have found : aliased.mmu.activeTable.lookup? 0x5083 = some ⟨0x80, 0x5000, 0x200, 4⟩ := by
      decide +kernel
    rw [Mmu.translate, Mmu.mapped, found]
    rfl
  have goes (address : UInt32) (holds : aliasedMemory.range.Holds address) :
      aliased.bus.GoesToRam address 0 aliasedMemory :=
    ⟨fun window opened => absurd opened (Option.not_mem_none window),
      ⟨rfl, holds, fun earlier before => absurd before (Nat.not_lt_zero earlier)⟩⟩
  obtain ⟨found, overlaid⟩ :=
    load_after_store aliased 0x12345678 toStore toLoad (goes 0x103 (by decide)) (by decide)
  rw [← aliasedAfter] at found overlaid
  have low : AccessSize.short.cut 0x12345678 = 0x5678 := by decide
  have second := (overlaid 0x102 (goes 0x102 (by decide)) .long).stored 2 (by decide) (by decide)
    (by decide)
  exact ⟨toStore, toLoad, found.read.trans low, second⟩

end Core

end RiscBoard
