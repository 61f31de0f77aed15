import Mathlib.Data.List.Pairwise
import RiscBoard.Proofs.Board.Arrangement
import RiscBoard.Proofs.Bus.Order

/-!
The regions of a board that was accepted. They are where its configuration puts them, no address lies
in two of them, and so each access has one place to go to, however the parts of the board are ordered.
-/

namespace RiscBoard

namespace BoardConfig

/-- Where a region starts, and how many addresses it has; none if the board has no such region. -/
def extent? (config : BoardConfig) : Region → Option (UInt32 × Nat)
  | .mainMemory => some (config.memoryBase, config.memorySize.toNat)
  | .biosRam => some (Board.biosRamBase, Board.biosRamSize)
  | .biosRom => config.bios.map fun image => (Board.biosRomBase, image.size)
  | .ioWindow => some (config.windowBase, Bus.windowSize)

def Occupies (config : BoardConfig) (region : Region) (address : UInt32) : Prop :=
  ∃ extent ∈ config.extent? region,
    extent.1.toNat ≤ address.toNat ∧ address.toNat < extent.1.toNat + extent.2

end BoardConfig

theorem AddressRange.contains_of_ofSize {start : UInt32} {size : Nat} {range : AddressRange}
    (made : AddressRange.ofSize start size = .ok range) (address : UInt32) :
    range.contains address = true ↔
      start.toNat ≤ address.toNat ∧ address.toNat < start.toNat + size := by
  obtain ⟨sameStart, sameStop⟩ := AddressRange.start_of_ofBounds made
  rw [contains, sameStart, sameStop, Bool.and_eq_true, decide_eq_true_eq, decide_eq_true_eq,
    UInt32.le_iff_toNat_le]

theorem Ram.contains_of_create {base : UInt32} {size : Nat} {memory : Ram}
    (made : create base size = .ok memory) (address : UInt32) :
    memory.range.contains address = true ↔
      base.toNat ≤ address.toNat ∧ address.toNat < base.toNat + size :=
  AddressRange.contains_of_ofSize (range_and_reset_of_create made).1 address

theorem Rom.range_of_ofImage {base : UInt32} {image : ByteArray} {rom : Rom}
    (made : Rom.ofImage base image = .ok rom) :
    AddressRange.ofSize base image.size = .ok rom.range := by
  unfold Rom.ofImage Rom.create at made
  split at made
  · cases bounds : AddressRange.ofSize base image.size with
    | error _ => rw [bounds] at made; cases made
    | ok range =>
      rw [bounds] at made
      rw [← Except.ok.inj made]
  · cases made

namespace Board

theorem bios_of_createBios {image : Option ByteArray} {bios : Option Rom}
    (made : createBios image = .ok bios) :
    (image = none ∧ bios = none) ∨
      ∃ bytes rom, image = some bytes ∧ bios = some rom ∧
        AddressRange.ofSize biosRomBase bytes.size = .ok rom.range := by
  cases image with
  | none => exact .inl ⟨rfl, (Except.ok.inj made).symm⟩
  | some bytes =>
    unfold createBios at made
    cases romMade : inRegion .biosRom (Rom.ofImage biosRomBase bytes) with
    | error _ => simp only [romMade] at made; cases made
    | ok rom =>
      simp only [romMade] at made
      exact .inr ⟨bytes, rom, rfl, (Except.ok.inj made).symm,
        Rom.range_of_ofImage (ok_of_inRegion romMade)⟩

section Assembled

variable {config : BoardConfig} {board : Board} {memory biosRam : Ram} {bios : Option Rom}
  {window : AddressRange}

theorem Assembled.occupies_iff (assembled : Assembled config board memory biosRam bios window)
    (region : Region) (address : UInt32) :
    config.Occupies region address ↔
      ∃ range, (region, range) ∈ layout memory biosRam bios (some window) ∧
        range.contains address = true := by
  cases region with
  | mainMemory =>
    simp [BoardConfig.Occupies, BoardConfig.extent?, layout,
      ← Ram.contains_of_create assembled.memoryMade]
  | biosRam =>
    simp [BoardConfig.Occupies, BoardConfig.extent?, layout,
      ← Ram.contains_of_create assembled.biosRamMade]
  | ioWindow =>
    simp [BoardConfig.Occupies, BoardConfig.extent?, layout, ←
      AddressRange.contains_of_ofSize assembled.windowMade]
  | biosRom =>
    rcases bios_of_createBios assembled.biosMade with
      ⟨absent, rfl⟩ | ⟨bytes, rom, present, rfl, made⟩
    · simp [BoardConfig.Occupies, BoardConfig.extent?, layout, absent]
    · simp [BoardConfig.Occupies, BoardConfig.extent?, layout, present, ←
        AddressRange.contains_of_ofSize made]

theorem Assembled.region_eq (assembled : Assembled config board memory biosRam bios window)
    {region other : Region} {address : UInt32} (inside : config.Occupies region address)
    (insideOther : config.Occupies other address) : region = other := by
  obtain ⟨range, member, contains⟩ := (assembled.occupies_iff region address).1 inside
  obtain ⟨otherRange, otherMember, otherContains⟩ :=
    (assembled.occupies_iff other address).1 insideOther
  by_contra different
  have symmetric : Std.Symm fun first second : Region × AddressRange =>
      second.2.overlaps first.2 = false :=
    ⟨fun first second apart => by rwa [AddressRange.overlaps_comm]⟩
  have apart : otherRange.overlaps range = false :=
    assembled.apart.forall member otherMember fun same => different (congrArg Prod.fst same)
  rw [AddressRange.contains_of_apart apart otherContains] at contains
  cases contains

theorem Assembled.separated (assembled : Assembled config board memory biosRam bios window) :
    board.core.bus.Separated := by
  have apart := assembled.apart
  rw [assembled.together]
  constructor
  · cases bios <;>
      simp_all [layout, devices, Core.create, MemoryDevice.range, AddressRange.overlaps_comm]
  · cases bios <;>
      simp_all [layout, devices, Core.create, MemoryDevice.range, AddressRange.overlaps_comm]

theorem Assembled.target?_eq_iff (assembled : Assembled config board memory biosRam bios window)
    (address : UInt32) :
    board.core.bus.target? address = some memoryIndex ↔ config.Occupies .mainMemory address := by
  rw [← assembled.separated.contains_iff assembled.arranged.memoryFirst]
  simp [BoardConfig.Occupies, BoardConfig.extent?, MemoryDevice.range,
    Ram.contains_of_create assembled.memoryMade]

end Assembled

/-- The regions of an accepted board have no address in common. So a bus with its devices, whatever
they hold, serves requests alike in any order of the memories and whether it asks the window before
the memories or after them; and main memory sees the accesses to its addresses and no other ones. -/
theorem dispatch_unambiguous {config : BoardConfig} {made : Traced Board}
    (accepted : create config = .ok made) :
    (∀ region other address, config.Occupies region address → config.Occupies other address →
      region = other) ∧
    ∀ bus : Bus, bus.blank = made.value.core.bus.blank →
      (∀ other first requests, bus.Reorders other →
        (other.answerAll first requests).1 = (bus.answerAll .window requests).1 ∧
        (bus.answerAll .window requests).2.Reorders (other.answerAll first requests).2 ∧
        (bus.answerAll .window requests).2.blank = bus.blank) ∧
      ∀ address value size,
        ((∃ access, Event.access (.memory memoryIndex) access ∈ (bus.read address size).events) ↔
          config.Occupies .mainMemory address) ∧
        ((∃ access, Event.access (.memory memoryIndex) access ∈
            (bus.write address value size).events) ↔
          config.Occupies .mainMemory address) := by
  obtain ⟨memory, biosRam, bios, window, assembled⟩ := assembled_of_create accepted
  refine ⟨fun region other address => assembled.region_eq, fun bus same => ⟨?_, ?_⟩⟩
  · intro other first requests reorders
    exact reorders.answerAll (assembled.separated.of_blank same) first requests
  · intro address value size
    have goes : bus.target? address = some memoryIndex ↔ config.Occupies .mainMemory address := by
      rw [Bus.target?_of_blank same, assembled.target?_eq_iff]
    exact ⟨(bus.access_mem_events_read address size memoryIndex).trans goes,
      (bus.access_mem_events_write address value size memoryIndex).trans goes⟩

/-- A board with a BIOS of six bytes, and accesses across the ends of its memories. -/
theorem dispatch_unambiguous_across_ends :
    let config := { BoardConfig.standard with
      memorySize := 0x4002, bios := some ((Bytes.ofWords [0x04030201, 0x08070605]).extract 0 6) }
    ∃ made, create config = .ok made ∧ ¬ config.Occupies .mainMemory 0x80004002 ∧
      ∀ other first, made.value.core.bus.Reorders other →
        (other.answerAll first [.write 0x80004000 0xddccbbaa .long, .read 0x80004000 .long,
          .read 4 .long, .read 0x80004002 .byte]).1 =
          [none, some 0x0000bbaa, some 0x00000605, some 0xffffffff] := by
  intro config
  have answers : (create config).toOption.any (fun made => decide
      ((made.value.core.bus.answerAll .window [.write 0x80004000 0xddccbbaa .long,
        .read 0x80004000 .long, .read 4 .long, .read 0x80004002 .byte]).1 =
          [none, some 0x0000bbaa, some 0x00000605, some 0xffffffff])) = true := by
    decide +kernel
  obtain ⟨made, accepted, answers⟩ := exists_of_any answers
  obtain ⟨-, laidOut⟩ := dispatch_unambiguous accepted
  obtain ⟨alike, -⟩ := laidOut made.value.core.bus rfl
  refine ⟨made, accepted, ?_, fun other first reorders => ?_⟩
  · rintro ⟨extent, isExtent, -, below⟩
    rw [← Option.some.inj isExtent] at below
    revert below
    decide
  · rw [(alike other first _ reorders).1, of_decide_eq_true answers]

end Board

end RiscBoard
