import RiscBoard.Proofs.Board.Loading
import RiscBoard.Proofs.Bus.Access
import RiscBoard.Proofs.Elf.Parsing
import RiscBoard.Proofs.Memory.Words

/-!
What virtual memory shows after a load. The first segment that spans an address decides what is
there: whether an access is permitted, and which byte a read finds. Where no segment is there is the
port window, and nothing elsewhere (`load_shows_image`).
-/

namespace RiscBoard

/-- The translation of a byte access by the first segment that spans its address, else by the port
window. -/
def imageTranslation (placements : List Placement) (window : AddressRange) (address : UInt32)
    (kind : AccessKind) : Except Exception UInt32 :=
  match placements.find? fun placement => placement.header.spans address with
  | some placement =>
    if placement.header.permits kind then .ok (placement.physical address)
    else .error kind.protectionFault
  | none =>
    if window.contains address then
      match kind with
      | .read | .write => .ok address
      | .execute => .error .execProtection
    else .error .noMapping

namespace Board

/-- Virtual memory shows the segments where they were placed: no two of them share a byte of main
memory, each is there as the file has it, and accesses find the first one that spans the address. -/
structure Shows (board : Board) (file : ByteArray) (window : AddressRange)
    (placements : List Placement) : Prop where
  inside : ∀ placement ∈ placements, board.memoryRange.start.toNat ≤ placement.place ∧
    placement.stop ≤ board.memoryRange.stop
  apart : placements.Pairwise fun first second => first.stop ≤ second.place
  physical : ∀ placement ∈ placements, ∀ distance < placement.header.size,
    (board.core.bus.read (UInt32.ofNat (placement.place + distance)) .byte).value.1 =
      (placement.header.byte file distance).toUInt32
  translate : ∀ address kind, board.core.mmu.translate address .byte kind =
    imageTranslation placements window address kind
  read : ∀ address placement,
    placements.find? (fun other => other.header.spans address) = some placement →
    placement.header.permits .read = true →
    (board.core.readVirtual address .byte).value.1 =
      (placement.header.byte file (address.toNat - placement.header.virtualStart)).toUInt32

theorem contains_windowEntry {window : AddressRange} (whole : window.size = Bus.windowSize)
    (address : UInt32) : (windowEntry window).contains address = window.contains address := by
  have ordered := window.start_le_stop
  rw [Bool.eq_iff_iff, MappingEntry.contains_iff]
  simp only [windowEntry, whole, AddressRange.contains, Bool.and_eq_true, decide_eq_true_eq,
    UInt32.le_iff_toNat_le]
  rw [AddressRange.size] at whole
  have size : (UInt32.ofNat Bus.windowSize).toNat = Bus.windowSize := rfl
  omega

theorem find?_entries {placements : List Placement}
    (small : ∀ placement ∈ placements, placement.header.size < addressSpaceSize) (address : UInt32) :
    (placements.map Placement.entry).find? (·.contains address) =
      (placements.find? fun placement => placement.header.spans address).map Placement.entry := by
  induction placements with
  | nil => rfl
  | cons first later ih =>
    rw [List.map_cons, List.find?_cons, List.find?_cons,
      Placement.contains_entry (small first List.mem_cons_self),
      ih fun placement member => small placement (List.mem_cons_of_mem first member)]
    split
    · rfl
    · rfl

theorem translate_byte (mmu : Mmu) (address : UInt32) (kind : AccessKind) :
    mmu.translate address .byte kind = mmu.mapped address kind := by
  unfold Mmu.translate
  cases mmu.mapped address kind with
  | error _ => rfl
  | ok _ => rfl

theorem translate_of_holds {mmu : Mmu} {placements : List Placement} {window : AddressRange}
    (control : mmu.control = MmuControl.cleared.setEnabled true)
    (holds : (mmu.table 0).Holds (placements.map Placement.entry ++ [windowEntry window]))
    (small : ∀ placement ∈ placements, placement.header.size < addressSpaceSize)
    (whole : window.size = Bus.windowSize) (address : UInt32) (kind : AccessKind) :
    mmu.translate address .byte kind = imageTranslation placements window address kind := by
  have enabled : mmu.control.enabled = true := by rw [control]; rfl
  have active : mmu.activeTable = mmu.table 0 := by rw [Mmu.activeTable, control]; rfl
  rw [translate_byte, Mmu.mapped, if_pos enabled, active, MappingTable.lookup?_of_holds holds,
    List.find?_append, find?_entries small]
  unfold imageTranslation
  cases found : placements.find? fun placement => placement.header.spans address with
  | some placement =>
    have covers := List.find?_some found
    simp only [Option.map_some, Option.some_or, Placement.allows_entry,
      Placement.translate_entry covers]
  | none =>
    rw [Option.map_none, Option.none_or, List.find?_singleton, contains_windowEntry whole]
    cases window.contains address with
    | false => rfl
    | true =>
      have itself : (windowEntry window).translate address = address := by
        rw [MappingEntry.translate, windowEntry, UInt32.add_comm, UInt32.sub_add_cancel]
      have allowed : (windowEntry window).allows kind = decide (kind ≠ .execute) := by
        show ((6 : UInt32) &&& kind.permission != 0) = decide (kind ≠ .execute)
        cases kind <;> decide
      simp only [if_true, allowed, itself]
      cases kind with
      | read | write | execute => rfl

theorem value_byte (byte : Nat → UInt8) (offset : Nat) :
    AccessSize.byte.truncate (Bytes.value byte offset .byte) = (byte offset).toUInt32 := by
  rw [AccessSize.truncate_eq_cut, Bytes.cut_value, ← UInt32.toNat_inj, Bytes.toNat_value,
    UInt8.toNat_toUInt32]
  rfl

theorem Arranged.value_read {board : Board} {memory biosRam : Ram} {window : AddressRange}
    (arranged : board.Arranged memory biosRam window) {place : Nat} (size : AccessSize)
    (above : memory.range.start.toNat ≤ place) (below : place < memory.range.stop) :
    (board.core.bus.read (UInt32.ofNat place) size).value.1 =
      size.truncate (memory.contents.read (place - memory.range.start.toNat) size) := by
  have isAddress : (UInt32.ofNat place).toNat = place :=
    toNat_place memory (Nat.succ_le_of_lt below) Nat.one_pos
  have inside : memory.range.contains (UInt32.ofNat place) = true := by
    simp [AddressRange.contains, UInt32.le_iff_toNat_le, isAddress, above, below]
  have noPort : board.core.bus.windowPort? (UInt32.ofNat place) = none := by
    have outside := AddressRange.contains_of_apart arranged.windowApart inside
    simp [Bus.windowPort?, arranged.windowOpen, AddressRange.offset?, outside]
  have goes : board.core.bus.target? (UInt32.ofNat place) = some memoryIndex := by
    obtain ⟨isDevice, same⟩ := Array.getElem?_eq_some_iff.1 arranged.memoryFirst
    rw [Bus.target?, noPort, Array.findIdx?_eq_some_iff_getElem]
    exact ⟨isDevice, by rwa [same], fun other before => absurd before (Nat.not_lt_zero other)⟩
  have offset : (UInt32.ofNat place - memory.range.start).toNat =
      place - memory.range.start.toNat := by
    rw [UInt32.toNat_sub_of_le _ _ (by rw [UInt32.le_iff_toNat_le, isAddress]; exact above), isAddress]
  rw [Bus.value_read_of_target size goes arranged.memoryFirst]
  show size.truncate (memory.read (UInt32.ofNat place - memory.range.start) size) = _
  rw [Ram.read, offset]

theorem Arranged.value_read_byte {board : Board} {memory biosRam : Ram} {window : AddressRange}
    (arranged : board.Arranged memory biosRam window) {place : Nat}
    (above : memory.range.start.toNat ≤ place) (below : place < memory.range.stop) :
    (board.core.bus.read (UInt32.ofNat place) .byte).value.1 =
      (memory.contents.byteAt (place - memory.range.start.toNat)).toUInt32 := by
  rw [arranged.value_read .byte above below, Contents.read, value_byte]

/-- Main memory leaves room for the port window, so the size of what is in it is a 32-bit number. -/
theorem Arranged.size_lt {board : Board} {memory biosRam : Ram} {window : AddressRange}
    (arranged : board.Arranged memory biosRam window) :
    memory.range.stop - memory.range.start.toNat < addressSpaceSize := by
  have apart := arranged.windowApart
  have whole := arranged.windowWhole
  have limit := memory.range.stop_le_size
  have windowLimit := window.stop_le_size
  have ports : Bus.windowSize = 0x10000 := rfl
  simp only [AddressRange.overlaps, Bool.and_eq_false_iff, decide_eq_false_iff_not] at apart
  rw [AddressRange.size] at whole
  omega

theorem Arranged.size_lt_of_carries {board : Board} {memory biosRam : Ram} {file : ByteArray}
    {window : AddressRange} {placement : Placement}
    (arranged : board.Arranged memory biosRam window) (carries : memory.Carries file placement) :
    placement.header.size < addressSpaceSize := by
  have memorySize := arranged.size_lt
  obtain ⟨above, below, -⟩ := carries
  unfold Placement.stop at below
  omega

theorem shows_of_carries {board : Board} {memory biosRam : Ram} {file : ByteArray}
    {window : AddressRange} {place : Nat} {headers : List Elf.ProgramHeader}
    (arranged : board.Arranged memory biosRam window)
    (carries : ∀ placement ∈ Placement.pack place headers, memory.Carries file placement)
    (control : board.core.mmu.control = MmuControl.cleared.setEnabled true)
    (holds : (board.core.mmu.table 0).Holds
      ((Placement.pack place headers).map Placement.entry ++ [windowEntry window])) :
    board.Shows file window (Placement.pack place headers) := by
  have small : ∀ placement ∈ Placement.pack place headers, placement.header.size < addressSpaceSize :=
    fun placement member => arranged.size_lt_of_carries (carries placement member)
  have physical : ∀ placement ∈ Placement.pack place headers,
      ∀ distance < placement.header.size,
        (board.core.bus.read (UInt32.ofNat (placement.place + distance)) .byte).value.1 =
          (placement.header.byte file distance).toUInt32 := by
    intro placement member distance inside
    obtain ⟨above, below, byteAt⟩ := carries placement member
    unfold Placement.stop at below
    rw [arranged.value_read_byte (by omega) (by omega), ← byteAt distance inside]
    congr 2
    omega
  have translate := translate_of_holds control holds small arranged.windowWhole
  refine ⟨fun placement member => ?_, Placement.pairwise_pack place headers, physical,
    translate, fun address placement found permitted => ?_⟩
  · rw [← arranged.memoryRange]
    exact ⟨(carries placement member).above, (carries placement member).below⟩
  · have covers := List.find?_some found
    have within := (Elf.ProgramHeader.spans_iff _ _).1 covers
    have translated := translate address .read
    unfold imageTranslation at translated
    rw [found] at translated
    simp only [permitted, if_true] at translated
    rw [Core.readVirtual, translated]
    exact physical placement (List.mem_of_find?_eq_some found) _ (by omega)

theorem Loaded.shows {board : Board} {file : ByteArray} {range window : AddressRange} {place : Nat}
    {headers : List Elf.ProgramHeader}
    (loaded : board.Loaded file range window (Placement.pack place headers)) :
    board.Shows file window (Placement.pack place headers) := by
  obtain ⟨memory, biosRam, arranged, carries⟩ := loaded.carries
  exact shows_of_carries arranged carries loaded.control loaded.table

/-- A file with three segments. The second one is empty, and the third one begins inside of the first
one, of whose eight bytes four are in the file. -/
def overlappingFile : ByteArray := Bytes.ofWords
  [0x464c457f, 0x00010101, 0, 0, 2, 1, 0x1000, 52, 0, 0, 0x00200034, 0x00280003, 0,
    1, 148, 0x1000, 0x1000, 4, 8, 4, 4,
    1, 148, 0x1000, 0x1000, 0, 0, 7, 4,
    1, 148, 0x1004, 0x1004, 8, 8, 6, 4,
    0x04030201, 0x08070605]

end Board

end RiscBoard
