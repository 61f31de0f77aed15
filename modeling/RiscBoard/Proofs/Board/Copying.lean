import RiscBoard.Elf.Load
import RiscBoard.Proofs.Board.Arrangement
import RiscBoard.Proofs.Memory.Overwriting

/-!
Copying into main memory. A run of bytes that fits into main memory is written byte by byte where it
was meant to go, and all other bytes of main memory keep their values. So a segment that is copied
is its bytes of the file followed by zeros, whatever was there before.
-/

namespace RiscBoard

namespace Ram

theorem changeWithin_load (memory : Ram) (start : Nat) (buffer : ByteArray) :
    (memory.changeWithin start buffer.size fun low high memory =>
      memory.load (low - memory.range.start.toNat) (buffer.extract (low - start) (high - start))) =
    memory.overwrite start buffer.size (Bytes.byteAt buffer) := by
  refine eq_of_contents (range_changeWithin (fun _ _ _ => range_load ..) ..) ?_
  rw [contents_overwrite]
  unfold changeWithin
  generalize lowIs : max start memory.range.start.toNat = low,
    highIs : min (start + buffer.size) memory.range.stop = high
  dsimp only
  split
  next nothing =>
    rw [Nat.sub_eq_zero_of_le nothing]
    rfl
  next some =>
    have size : (buffer.extract (low - start) (high - start)).size = high - low := by
      rw [ByteArray.size_extract]
      omega
    rw [contents_load, Contents.load, size]
    apply Contents.patch_congr
    intro distance inside
    apply Bytes.byteAt_extract
    omega

/-- The memory has some bytes from `place` on, which is a physical address, and elsewhere those of
an earlier memory. -/
structure Filled (filled memory : Ram) (place size : Nat) (byte : Nat → UInt8) : Prop where
  range : filled.range = memory.range
  byteAt : ∀ index, filled.contents.byteAt index =
    if place ≤ memory.range.start.toNat + index ∧
        memory.range.start.toNat + index < place + size then
      byte (memory.range.start.toNat + index - place)
    else memory.contents.byteAt index

theorem Filled.refl (memory : Ram) (place : Nat) (byte : Nat → UInt8) :
    memory.Filled memory place 0 byte :=
  ⟨rfl, fun index => (if_neg (by omega)).symm⟩

theorem Filled.append {memory filled longer : Ram} {place size more : Nat} {byte : Nat → UInt8}
    (first : filled.Filled memory place size byte)
    (second : longer.Filled filled (place + size) more fun distance => byte (size + distance)) :
    longer.Filled memory place (size + more) byte := by
  refine ⟨second.range.trans first.range, fun index => ?_⟩
  rw [second.byteAt, first.byteAt, first.range]
  split
  next later =>
    rw [if_pos (by omega)]
    congr 1
    omega
  next notLater =>
    split
    next earlier => rw [if_pos (by omega)]
    next notEarlier => rw [if_neg (by omega)]

/-- A run is filled by overwriting it, if the memory has all of its addresses. -/
theorem filled_overwrite (memory : Ram) {place size : Nat} (byte : Nat → UInt8)
    (below : place + size ≤ memory.range.stop) :
    (memory.overwrite place size byte).Filled memory place size byte := by
  refine ⟨rfl, fun index => ?_⟩
  rw [byteAt_overwrite, Nat.min_eq_left below]

end Ram

namespace Board

section Inside

variable {board : Board} {memory biosRam : Ram} {window : AddressRange} {place size : Nat}

theorem toNat_place (memory : Ram) (below : place + size ≤ memory.range.stop) (some : 0 < size) :
    (UInt32.ofNat place).toNat = place := by
  have bound := memory.range.stop_le_size
  unfold addressSpaceSize at bound
  exact UInt32.toNat_ofNat_of_lt' (by omega)

theorem Arranged.loadPhysical (arranged : board.Arranged memory biosRam window)
    {buffer : ByteArray} (below : place + buffer.size ≤ memory.range.stop) :
    ∃ loaded biosRam, (board.loadPhysical (UInt32.ofNat place) buffer).value.Arranged
        loaded biosRam window ∧
      loaded.Filled memory place buffer.size (Bytes.byteAt buffer) := by
  unfold Board.loadPhysical
  refine ⟨_, _, arranged.changePhysical _ buffer.size fun _ _ _ => Ram.range_load .., ?_⟩
  rcases Nat.eq_zero_or_pos buffer.size with nothing | some
  · rw [nothing, Ram.changeWithin_zero]
    exact .refl memory place _
  · rw [toNat_place memory below some, Ram.changeWithin_load]
    exact memory.filled_overwrite _ below

theorem Arranged.clearPhysical (arranged : board.Arranged memory biosRam window)
    (above : memory.range.start.toNat ≤ place) (below : place + size ≤ memory.range.stop) :
    ∃ cleared biosRam, (board.clearPhysical (UInt32.ofNat place) size).value.Arranged
        cleared biosRam window ∧
      cleared.Filled memory place size fun _ => 0 := by
  unfold Board.clearPhysical
  refine ⟨_, _, arranged.changePhysical _ size fun _ _ _ => Ram.range_clear .., ?_⟩
  rcases Nat.eq_zero_or_pos size with nothing | some
  · rw [nothing, Ram.changeWithin_zero]
    exact .refl memory place _
  · rw [toNat_place memory below some, Ram.changeWithin_of_inside memory _ above below some]
    refine ⟨Ram.range_clear .., fun index => ?_⟩
    rw [Nat.add_sub_cancel_left, Ram.contents_clear, Contents.byteAt_clear]
    split
    next inside => rw [if_pos (by omega)]
    next outside => rw [if_neg (by omega)]

/-- A copied segment is its contents and zeros after them, and no other byte of main memory
changes. -/
theorem Arranged.copySegment (arranged : board.Arranged memory biosRam window)
    {header : Elf.ProgramHeader} {contents : ByteArray} (fits : contents.size ≤ header.size)
    (above : memory.range.start.toNat ≤ place)
    (below : place + header.size ≤ memory.range.stop) :
    ∃ copied biosRam, (board.copySegment header contents place).value.Arranged
        copied biosRam window ∧
      copied.Filled memory place header.size (Bytes.byteAt contents) := by
  rw [Board.copySegment, Traced.value_bind]
  obtain ⟨loaded, _, loadedArranged, isLoaded⟩ := arranged.loadPhysical
    (show place + contents.size ≤ memory.range.stop by omega)
  have sameRange := isLoaded.range
  have tailAbove : loaded.range.start.toNat ≤ place + contents.size := by
    rw [sameRange]
    omega
  have tailBelow : place + contents.size + (header.size - contents.size) ≤ loaded.range.stop := by
    rw [sameRange]
    omega
  obtain ⟨copied, biosRam, copiedArranged, isCleared⟩ :=
    loadedArranged.clearPhysical tailAbove tailBelow
  refine ⟨copied, biosRam, copiedArranged, ?_⟩
  have zeros : (fun distance => Bytes.byteAt contents (contents.size + distance)) = fun _ => 0 :=
    funext fun distance => Bytes.byteAt_of_size_le (Nat.le_add_right ..)
  have filled := isLoaded.append (zeros ▸ isCleared)
  rwa [Nat.add_sub_cancel' fits] at filled

@[simp] theorem memoryRange_copySegment (board : Board) (header : Elf.ProgramHeader)
    (contents : ByteArray) (place : Nat) :
    (board.copySegment header contents place).value.memoryRange = board.memoryRange := by
  simp only [Board.copySegment, Board.loadPhysical, Board.clearPhysical, Traced.value_bind,
    memoryRange_changePhysical]

@[simp] theorem mmu_copySegment (board : Board) (header : Elf.ProgramHeader)
    (contents : ByteArray) (place : Nat) :
    (board.copySegment header contents place).value.core.mmu = board.core.mmu := by
  simp only [Board.copySegment, Board.loadPhysical, Board.clearPhysical, Traced.value_bind,
    mmu_changePhysical]

end Inside

end Board

end RiscBoard
