import RiscBoard.Proofs.Board.ImageView
import RiscBoard.Proofs.Board.Regions
import RiscBoard.Proofs.Board.Reset
import RiscBoard.Proofs.Bus.Ownership
import RiscBoard.Proofs.Memory.Overwriting

/-!
What a load into physical memory does to a board. Both memories are overwritten with the part of the
buffer that has their addresses, which is cut out of the buffer within its bounds, and nothing else of
the board changes. So the pieces of a buffer can be loaded one by one and in any order
(`loadPhysical_writes_memories`).
-/

namespace RiscBoard

namespace Ram

theorem overwrite_buffer (memory : Ram) (place : Nat) (buffer : ByteArray) :
    memory.overwrite place buffer.size (Bytes.byteAt buffer) =
      memory.pokeAll (buffer.data.toList.zipIdx place) := by
  rw [pokeAll_zipIdx, Array.length_toList, ByteArray.size_data]
  refine memory.overwrite_congr place fun distance _ => ?_
  rw [Bytes.byteAt_eq_data, List.getD_eq_getElem?_getD, Array.getElem?_toList]

end Ram

namespace MemoryDevice

theorem modifyRam_modifyRam (device : MemoryDevice) (first second : Ram → Ram) :
    (device.modifyRam first).modifyRam second =
      device.modifyRam fun memory => second (first memory) := by
  cases device with
  | ram | rom | peripheral => rfl

theorem ram_of_blank {found : Option MemoryDevice} {memory : Ram}
    (same : found.map blank = some (MemoryDevice.ram memory).blank) :
    ∃ current : Ram, found = some (.ram current) ∧ current.range = memory.range := by
  obtain ⟨device, rfl, alike⟩ := Option.map_eq_some_iff.1 same
  have ranges : device.range = memory.range := by
    rw [← range_blank device, alike, range_blank]
    rfl
  cases device with
  | ram current => exact ⟨current, rfl, ranges⟩
  | rom | peripheral => cases alike

end MemoryDevice

namespace Bus

theorem value_read_byte_of_ram {bus : Bus} {memory : Ram} {address : UInt32} {index : Nat}
    (goes : bus.target? address = some index) (placed : bus.memory[index]? = some (.ram memory)) :
    (bus.read address .byte).value.1 =
      (memory.contents.byteAt (address - memory.range.start).toNat).toUInt32 := by
  rw [value_read_of_target .byte goes placed]
  exact Board.value_byte ..

end Bus

namespace Board

section Change

variable {change other : Nat → Nat → Ram → Ram}

def withMemories (board : Board) (change : Ram → Ram) : Board :=
  let bus := (board.core.bus.modifyRam memoryIndex change).modifyRam biosRamIndex change
  { board with core := { board.core with bus := bus } }

/-- A change is asked for the part of a memory that it is about and for nothing else. -/
theorem changeDevice_congr {start size : Nat}
    (same : ∀ memory : Ram,
      memory.changeWithin start size change = memory.changeWithin start size other)
    (bus : Bus) (index : Nat) :
    changeDevice bus index start size change = changeDevice bus index start size other := by
  apply Traced.ext
  · rw [value_changeDevice_eq, value_changeDevice_eq, funext same]
  · unfold changeDevice
    split
    next =>
      dsimp only
      split
      next => rfl
      next => rfl
    next => rfl

theorem changePhysical_congr {board : Board} {address : UInt32} {size : Nat}
    (same : ∀ memory : Ram,
      memory.changeWithin address.toNat size change = memory.changeWithin address.toNat size other) :
    board.changePhysical address size change = board.changePhysical address size other := by
  unfold changePhysical
  rw [changeDevice_congr same]
  simp only [changeDevice_congr same]

theorem value_changePhysical (board : Board) (address : UInt32) (size : Nat) :
    (board.changePhysical address size change).value =
      board.withMemories fun memory => memory.changeWithin address.toNat size change := by
  simp only [changePhysical, Traced.value_bind, Traced.value_pure, value_changeDevice_eq, withMemories]

theorem getElem?_withMemories (board : Board) (change : Ram → Ram) (index : Nat) :
    (board.withMemories change).core.bus.memory[index]? =
      if index = memoryIndex ∨ index = biosRamIndex then
        board.core.bus.memory[index]?.map (·.modifyRam change)
      else board.core.bus.memory[index]? := by
  simp only [withMemories, Bus.getElem?_modifyRam]
  split
  next isBiosRam =>
    have notMemory : memoryIndex ≠ index := by
      rw [← isBiosRam]
      decide
    rw [if_neg notMemory, if_pos (.inr isBiosRam.symm)]
  next notBiosRam =>
    simp only [eq_comm (a := index), notBiosRam, or_false]

theorem withMemories_withMemories (board : Board) (first second : Ram → Ram) :
    (board.withMemories first).withMemories second =
      board.withMemories fun memory => second (first memory) := by
  have bus : ((board.withMemories first).withMemories second).core.bus =
      (board.withMemories fun memory => second (first memory)).core.bus := by
    refine Bus.eq_of_memory rfl rfl fun index => ?_
    simp only [getElem?_withMemories]
    split
    next =>
      simp only [Option.map_map, Function.comp_def, MemoryDevice.modifyRam_modifyRam]
    next => rfl
  exact congrArg (fun bus => { board with core := { board.core with bus := bus } }) bus

@[simp] theorem withMemories_id (board : Board) :
    board.withMemories (fun memory => memory) = board := by
  have unchanged (bus : Bus) (index : Nat) : bus.modifyRam index (fun memory => memory) = bus :=
    Bus.modifyRam_of_unchanged fun _ _ => rfl
  rw [withMemories, unchanged, unchanged]

end Change

theorem value_loadPhysical (board : Board) (address : UInt32) (buffer : ByteArray) :
    (board.loadPhysical address buffer).value =
      board.withMemories fun memory =>
        memory.overwrite address.toNat buffer.size (Bytes.byteAt buffer) := by
  rw [loadPhysical, value_changePhysical]
  simp only [Ram.changeWithin_load]

section Checked

/-- Bytes from a buffer at `start` are cut out within its bounds, and they all fit into the memory that
they are meant for, at an offset that is a 32-bit number. -/
def SliceFits (memory : Ram) (start : Nat) (buffer : ByteArray) (low high : Nat) : Prop :=
  (start ≤ low ∧ low ≤ high ∧ high - start ≤ buffer.size) ∧
    (memory.range.start.toNat ≤ low ∧ low - memory.range.start.toNat < UInt32.size ∧
      low - memory.range.start.toNat + (high - low) ≤ memory.size)

instance (memory : Ram) (start : Nat) (buffer : ByteArray) (low high : Nat) :
    Decidable (SliceFits memory start buffer low high) :=
  inferInstanceAs (Decidable (_ ∧ _))

def loadChecked (board : Board) (failed : Ram → Ram) (address : UInt32) (buffer : ByteArray) :
    Traced Board :=
  board.changePhysical address buffer.size fun low high memory =>
    if SliceFits memory address.toNat buffer low high then
      memory.load (low - memory.range.start.toNat)
        (buffer.extract (low - address.toNat) (high - address.toNat))
    else failed memory

/-- No slice is out of bounds. -/
theorem loadChecked_eq (board : Board) (failed : Ram → Ram) (address : UInt32)
    (buffer : ByteArray) :
    board.loadChecked failed address buffer = board.loadPhysical address buffer := by
  apply changePhysical_congr
  intro memory
  have size : memory.size = memory.range.stop - memory.range.start.toNat := memory.size_eq
  have bound := memory.range.stop_le_size
  unfold addressSpaceSize at bound
  unfold Ram.changeWithin
  dsimp only
  split
  next => rfl
  next some =>
    apply if_pos
    unfold SliceFits
    omega

end Checked

section Pieces

def loadAll (board : Board) : List (UInt32 × ByteArray) → Traced Board
  | [] => pure board
  | (address, piece) :: later => do
    let next ← board.loadPhysical address piece
    next.loadAll later

/-- The bytes of a piece with their addresses, which may lie past the last one that there is. -/
def cells (piece : UInt32 × ByteArray) : List (UInt8 × Nat) :=
  piece.2.data.toList.zipIdx piece.1.toNat

def Consecutive : Nat → List (UInt32 × ByteArray) → Prop
  | _, [] => True
  | next, (address, piece) :: later =>
    address.toNat = next ∧ Consecutive (next + piece.size) later

structure Splits (pieces : List (UInt32 × ByteArray)) (address : UInt32) (buffer : ByteArray) :
    Prop where
  consecutive : Consecutive address.toNat pieces
  bytes : pieces.flatMap (fun piece => piece.2.data.toList) = buffer.data.toList

theorem value_loadAll (board : Board) (pieces : List (UInt32 × ByteArray)) :
    (board.loadAll pieces).value =
      board.withMemories fun memory => memory.pokeAll (pieces.flatMap cells) := by
  induction pieces generalizing board with
  | nil => exact board.withMemories_id.symm
  | cons piece later ih =>
    obtain ⟨address, piece⟩ := piece
    rw [loadAll, Traced.value_bind, ih, value_loadPhysical, withMemories_withMemories]
    congr 1
    funext memory
    rw [Ram.overwrite_buffer, List.flatMap_cons, Ram.pokeAll, Ram.pokeAll, ← List.foldl_append]
    rfl

theorem cells_of_consecutive {place : Nat} {pieces : List (UInt32 × ByteArray)}
    (consecutive : Consecutive place pieces) :
    pieces.flatMap cells = (pieces.flatMap fun piece => piece.2.data.toList).zipIdx place := by
  induction pieces generalizing place with
  | nil => rfl
  | cons piece later ih =>
    obtain ⟨address, piece⟩ := piece
    obtain ⟨here, further⟩ := consecutive
    rw [List.flatMap_cons, List.flatMap_cons, List.zipIdx_append, ih further, cells, here]
    rfl

theorem Splits.value_loadAll {pieces order : List (UInt32 × ByteArray)} {address : UInt32}
    {buffer : ByteArray} (splits : Splits pieces address buffer) (perm : order.Perm pieces)
    (board : Board) : (board.loadAll order).value = (board.loadPhysical address buffer).value := by
  have run : pieces.flatMap cells = buffer.data.toList.zipIdx address.toNat := by
    rw [cells_of_consecutive splits.consecutive, splits.bytes]
  have shuffled : (order.flatMap cells).Perm (buffer.data.toList.zipIdx address.toNat) := by
    rw [← run]
    exact perm.flatMap_right cells
  rw [Board.value_loadAll, value_loadPhysical]
  congr 1
  funext memory
  rw [memory.pokeAll_of_perm shuffled, Ram.overwrite_buffer]

end Pieces

/-- What a load makes of a board: the memories have the bytes of the buffer where it has their
addresses, as unbounded numbers, and keep the other ones. All else is as it was. -/
structure LoadedWith (loaded board : Board) (config : BoardConfig) (address : UInt32)
    (buffer : ByteArray) : Prop where
  byte : ∀ place, config.Occupies .mainMemory place ∨ config.Occupies .biosRam place →
    (loaded.core.bus.read place .byte).value.1 =
      if address.toNat ≤ place.toNat ∧ place.toNat < address.toNat + buffer.size then
        (Bytes.byteAt buffer (place.toNat - address.toNat)).toUInt32
      else (board.core.bus.read place .byte).value.1
  device : ∀ index, index ≠ memoryIndex → index ≠ biosRamIndex →
    loaded.core.bus.memory[index]? = board.core.bus.memory[index]?
  rest : loaded = { board with
    core := { board.core with bus := { board.core.bus with memory := loaded.core.bus.memory } } }

section Loaded

variable {config : BoardConfig} {made board : Board} {memory biosRam : Ram} {bios : Option Rom}
  {window : AddressRange}

/-- The two memories are where they were made, whatever they hold. -/
theorem Assembled.placed_of_occupies (assembled : Assembled config made memory biosRam bios window)
    (same : board.core.bus.blank = made.core.bus.blank) {place : UInt32}
    (inside : config.Occupies .mainMemory place ∨ config.Occupies .biosRam place) :
    ∃ index current, (index = memoryIndex ∨ index = biosRamIndex) ∧
      board.core.bus.memory[index]? = some (.ram current) ∧
      board.core.bus.target? place = some index ∧ current.range.Holds place := by
  have found : ∃ (index : Nat) (initial : Ram), (index = memoryIndex ∨ index = biosRamIndex) ∧
      made.core.bus.memory[index]? = some (.ram initial) ∧ initial.range.contains place = true := by
    rcases inside with inMemory | inBiosRam
    · refine ⟨memoryIndex, memory, .inl rfl, assembled.arranged.memoryFirst, ?_⟩
      rw [Ram.contains_of_create assembled.memoryMade]
      obtain ⟨extent, isExtent, bounds⟩ := inMemory
      cases isExtent
      exact bounds
    · refine ⟨biosRamIndex, biosRam, .inr rfl, assembled.arranged.biosRamSecond, ?_⟩
      rw [Ram.contains_of_create assembled.biosRamMade]
      obtain ⟨extent, isExtent, bounds⟩ := inBiosRam
      cases isExtent
      exact bounds
  obtain ⟨index, initial, isMemory, placed, contains⟩ := found
  have blank := congrArg (fun bus : Bus => bus.memory[index]?) same
  simp only [Bus.blank, Array.getElem?_map] at blank
  rw [placed] at blank
  obtain ⟨current, isCurrent, range⟩ := MemoryDevice.ram_of_blank blank
  refine ⟨index, current, isMemory, isCurrent, ?_, ?_⟩
  · rw [Bus.target?_of_blank same]
    exact (assembled.separated.contains_iff placed).1 contains
  · rw [range]
    exact (initial.range.contains_iff_holds place).1 contains

theorem Assembled.loadedWith (assembled : Assembled config made memory biosRam bios window)
    (same : board.core.bus.blank = made.core.bus.blank) (address : UInt32) (buffer : ByteArray) :
    (board.loadPhysical address buffer).value.LoadedWith board config address buffer := by
  have blank : (board.loadPhysical address buffer).value.core.bus.blank = board.core.bus.blank :=
    congrArg (·.core.bus) (board.pristine_loadPhysical address buffer)
  rw [value_loadPhysical] at blank ⊢
  constructor
  · intro place inside
    obtain ⟨index, current, isMemory, placed, goes, holds⟩ :=
      assembled.placed_of_occupies same inside
    obtain ⟨above, below⟩ := holds
    have offset : (place - current.range.start).toNat =
        place.toNat - current.range.start.toNat :=
      UInt32.toNat_sub_of_le _ _ (UInt32.le_iff_toNat_le.2 above)
    have back : current.range.start.toNat + (place.toNat - current.range.start.toNat) =
        place.toNat := by omega
    have within : place.toNat < min (address.toNat + buffer.size) current.range.stop ↔
        place.toNat < address.toNat + buffer.size := by omega
    have changed := board.getElem?_withMemories
      (fun memory => memory.overwrite address.toNat buffer.size (Bytes.byteAt buffer)) index
    rw [if_pos isMemory, placed] at changed
    have stillGoes := (Bus.target?_of_blank blank place).trans goes
    rw [Bus.value_read_byte_of_ram stillGoes changed, Bus.value_read_byte_of_ram goes placed,
      Ram.range_overwrite, offset, Ram.byteAt_overwrite, back]
    simp only [within]
    split
    next => rfl
    next => rfl
  · intro index notMemory notBiosRam
    rw [getElem?_withMemories, if_neg (by omega)]
  · rfl

end Loaded

/-- A load into a board that was made and then used in any way writes the part of the buffer that has
addresses of main memory or of the BIOS's memory, and nothing else. No slice that it takes is out of
bounds. A buffer that is cut into consecutive pieces can be loaded piece by piece in any order. -/
theorem loadPhysical_writes_memories {config : BoardConfig} {made : Traced Board}
    (accepted : create config = .ok made) (operations : List BoardOperation) (address : UInt32)
    (buffer : ByteArray) :
    let board := (made.value.operateAll operations).value
    let loaded := board.loadPhysical address buffer
    loaded.value.LoadedWith board config address buffer ∧
      (∀ failed, board.loadChecked failed address buffer = loaded) ∧
      ∀ pieces order, Splits pieces address buffer → order.Perm pieces →
        (board.loadAll order).value = loaded.value := by
  intro board loaded
  obtain ⟨memory, biosRam, bios, window, assembled⟩ := assembled_of_create accepted
  have same : board.core.bus.blank = made.value.core.bus.blank :=
    congrArg (·.core.bus) (made.value.pristine_operateAll operations)
  refine ⟨assembled.loadedWith same address buffer, ?_, ?_⟩
  · intro failed
    exact board.loadChecked_eq failed address buffer
  · intro pieces order splits perm
    exact splits.value_loadAll perm board

def gapConfig : BoardConfig :=
  { BoardConfig.standard with memoryBase := 0x0007fff4, memorySize := 8 }

def spanningBuffer : ByteArray := Bytes.ofWords [0x04030201, 0x08070605, 0x0c0b0a09]

def leadingPiece : UInt32 × ByteArray := (0x0007fff6, spanningBuffer.extract 0 4)

def trailingPiece : UInt32 × ByteArray := (0x0007fffa, spanningBuffer.extract 4 12)

def loadAndTick : List BoardOperation :=
  [.loadPhysical 0x0007fff4 (Bytes.ofWords [0x99999999, 0x88888888]), .tick]

theorem spanning_writes_memories :
    ∃ made, create gapConfig = .ok made ∧
      let board := (made.value.operateAll loadAndTick).value
      let loaded := board.loadPhysical 0x0007fff6 spanningBuffer
      ((loaded.value.core.bus.read 0x0007fff4 .long).value.1 = 0x02019999 ∧
        (loaded.value.core.bus.read 0x0007fff8 .long).value.1 = 0x06050403 ∧
        (loaded.value.core.bus.read 0x0007fffc .long).value.1 = 0xffffffff ∧
        (loaded.value.core.bus.read 0x00080000 .long).value.1 = 0x00000c0b) ∧
      loaded.value.LoadedWith board gapConfig 0x0007fff6 spanningBuffer ∧
      (board.loadAll [trailingPiece, leadingPiece]).value = loaded.value := by
  have reads : (create gapConfig).toOption.any (fun made =>
      let board := (made.value.operateAll loadAndTick).value
      let loaded := board.loadPhysical 0x0007fff6 spanningBuffer
      decide ((loaded.value.core.bus.read 0x0007fff4 .long).value.1 = 0x02019999 ∧
        (loaded.value.core.bus.read 0x0007fff8 .long).value.1 = 0x06050403 ∧
        (loaded.value.core.bus.read 0x0007fffc .long).value.1 = 0xffffffff ∧
        (loaded.value.core.bus.read 0x00080000 .long).value.1 = 0x00000c0b)) = true := by
    decide +kernel
  obtain ⟨made, accepted, reads⟩ := exists_of_any reads
  have splits : Splits [leadingPiece, trailingPiece] 0x0007fff6 spanningBuffer :=
    ⟨⟨rfl, by decide +kernel, trivial⟩, by decide +kernel⟩
  obtain ⟨loadedWith, -, pieces⟩ :=
    loadPhysical_writes_memories accepted loadAndTick 0x0007fff6 spanningBuffer
  refine ⟨made, accepted, of_decide_eq_true reads, loadedWith, ?_⟩
  exact pieces _ _ splits (List.Perm.swap ..)

end Board

end RiscBoard
