import RiscBoard.Proofs.Board.Copying
import RiscBoard.Proofs.Bus.Access
import RiscBoard.Proofs.Elf.Placement

/-!
Loading segments. Each step puts one segment behind those before it and its entry behind theirs, so
that after the last step main memory carries every segment and table 0 holds their entries in the
order of the file (`Holding.placeSegments`). The entry of the port window comes after them, and a load
that succeeds is whole (`Fresh.load`).
-/

namespace RiscBoard

/-- Main memory has the segment at its place, whole and with zeros after the bytes of the file. -/
structure Ram.Carries (memory : Ram) (file : ByteArray) (placement : Placement) : Prop where
  above : memory.range.start.toNat ≤ placement.place
  below : placement.stop ≤ memory.range.stop
  byteAt : ∀ distance < placement.header.size,
    memory.contents.byteAt (placement.place - memory.range.start.toNat + distance) =
      placement.header.byte file distance

namespace Ram

theorem Filled.carries {memory filled : Ram} {file : ByteArray} {placement : Placement}
    (above : memory.range.start.toNat ≤ placement.place)
    (below : placement.stop ≤ memory.range.stop)
    (isFilled : filled.Filled memory placement.place placement.header.size
      (placement.header.byte file)) : filled.Carries file placement := by
  have sameRange := isFilled.range
  refine ⟨by rwa [sameRange], by rwa [sameRange], fun distance inside => ?_⟩
  rw [sameRange, isFilled.byteAt, if_pos (by omega)]
  congr 1
  omega

theorem Carries.of_eq_below {memory later : Ram} {file : ByteArray} {placement : Placement}
    {place : Nat} (carries : memory.Carries file placement) (ends : placement.stop ≤ place)
    (sameRange : later.range = memory.range)
    (same : ∀ index, memory.range.start.toNat + index < place →
      later.contents.byteAt index = memory.contents.byteAt index) :
    later.Carries file placement := by
  obtain ⟨above, below, byteAt⟩ := carries
  refine ⟨by rwa [sameRange], by rwa [sameRange], fun distance inside => ?_⟩
  rw [sameRange, same _ (by unfold Placement.stop at ends; omega)]
  exact byteAt distance inside

end Ram

namespace Board

/-- An entry goes behind those that table 0 holds, and nothing else changes. -/
theorem insertMapping_of_holds {board : Board} {entries : List MappingEntry}
    (holds : (board.core.mmu.table 0).Holds entries) (room : entries.length < 32)
    (entry : MappingEntry) :
    ∃ mapped, board.insertMapping entry = .ok mapped ∧
      (mapped.core.mmu.table 0).Holds (entries ++ [entry]) ∧
      mapped.core.mmu.control = board.core.mmu.control ∧
      mapped.core.bus = board.core.bus ∧ mapped.memoryRange = board.memoryRange := by
  obtain ⟨slot, table, inserted, tableHolds⟩ := MappingTable.insert_of_holds holds room entry
  let mapped := { board with core := { board.core with mmu := board.core.mmu.setTable 0 table } }
  refine ⟨mapped, ?_, ?_, rfl, rfl, rfl⟩
  · rw [insertMapping]
    simp only [PrivilegeLevel.index, inserted, Except.map, mapped]
  · simpa only [mapped, Mmu.table_setTable, if_pos] using tableHolds

theorem Arranged.of_bus_eq {board other : Board} {memory biosRam : Ram} {window : AddressRange}
    (arranged : board.Arranged memory biosRam window) (sameBus : other.core.bus = board.core.bus)
    (sameRange : other.memoryRange = board.memoryRange) :
    other.Arranged memory biosRam window :=
  { arranged with
    memoryFirst := sameBus ▸ arranged.memoryFirst
    biosRamSecond := sameBus ▸ arranged.biosRamSecond
    windowOpen := sameBus ▸ arranged.windowOpen
    memoryRange := sameRange ▸ arranged.memoryRange }

/-- A board with some segments loaded: main memory carries them and table 0 holds their entries. -/
structure Holding (board : Board) (file : ByteArray) (range window : AddressRange)
    (placements : List Placement) : Prop where
  control : board.core.mmu.control = .cleared
  table : (board.core.mmu.table 0).Holds (placements.map Placement.entry)
  memoryRange : board.memoryRange = range
  carries : ∃ memory biosRam, board.Arranged memory biosRam window ∧
    ∀ placement ∈ placements, memory.Carries file placement

theorem Fresh.holding {board : Board} (fresh : board.Fresh) (file : ByteArray) :
    ∃ window, board.core.bus.window = some window ∧ window.size = Bus.windowSize ∧
      board.Holding file board.memoryRange window [] := by
  obtain ⟨cleared, memory, biosRam, window, arranged⟩ := fresh.arranged
  refine ⟨window, arranged.windowOpen, arranged.windowWhole, ?_, ?_, rfl, memory, biosRam, arranged,
    nofun⟩
  · rw [cleared]
    rfl
  · rw [cleared]
    exact MappingTable.holds_empty

section Holding

variable {board : Board} {reader : Elf.Reader} {file : ByteArray} {range window : AddressRange}
  {placements : List Placement} {place : Nat}

/-- The step of a load: a segment behind all those that are loaded joins them. -/
theorem Holding.insertMapping_copySegment (holding : board.Holding file range window placements)
    (locates : reader.Locates file) {header : Elf.ProgramHeader} {contents : ByteArray}
    (found : reader.contents? header file = some contents) (above : range.start.toNat ≤ place)
    (below : place + header.size ≤ range.stop)
    (ends : ∀ placement ∈ placements, placement.stop ≤ place) (room : placements.length < 32) :
    ∃ mapped, (board.copySegment header contents place).value.insertMapping
        (segmentEntry header place) = .ok mapped ∧
      mapped.Holding file range window (placements ++ [⟨header, place⟩]) := by
  obtain ⟨control, table, rfl, memory, biosRam, arranged, carries⟩ := holding
  obtain ⟨size, isContents⟩ := Elf.Reader.contents_of_contents? locates found
  have fits : contents.size ≤ header.size := by
    rw [size]
    exact Nat.le_max_right ..
  rw [← arranged.memoryRange] at above below
  obtain ⟨copied, biosRam, copiedArranged, filled⟩ := arranged.copySegment fits above below
  rw [isContents] at filled
  rw [← mmu_copySegment board header contents place] at control table
  obtain ⟨mapped, inserted, mappedHolds, sameControl, sameBus, sameRange⟩ :=
    insertMapping_of_holds table (by rwa [List.length_map]) (segmentEntry header place)
  have mappedArranged := copiedArranged.of_bus_eq sameBus sameRange
  refine ⟨mapped, inserted, ⟨sameControl.trans control, ?_, ?_, copied, biosRam, mappedArranged, ?_⟩⟩
  · rw [List.map_append]
    exact mappedHolds
  · rw [sameRange, memoryRange_copySegment]
  · intro placement member
    rcases List.mem_append.1 member with earlier | last
    · refine (carries placement earlier).of_eq_below (ends placement earlier) filled.range ?_
      intro index before
      rw [filled.byteAt, if_neg (by omega)]
    · rw [List.mem_singleton.1 last]
      exact Ram.Filled.carries above below filled

theorem placeSegments_of_past {header : Elf.ProgramHeader} {contents : ByteArray}
    (found : reader.contents? header file = some contents)
    (past : board.memoryRange.stop < place + header.size) (index : Nat)
    (later : List Elf.ProgramHeader) :
    Board.placeSegments reader file index place board (header :: later) =
      pure ⟨board, some (Placement.refusal ⟨header, place⟩ index)⟩ := by
  simp only [Board.placeSegments, found, if_pos past]
  by_cases narrow : place + header.size < UInt64.size
  · have refusal : Placement.refusal ⟨header, place⟩ index = .segmentTooLarge index header.size :=
      if_pos narrow
    rw [if_neg (Nat.not_le_of_lt narrow), refusal]
  · have refusal : Placement.refusal ⟨header, place⟩ index = .placeOverflow index header.size :=
      if_neg narrow
    rw [if_pos (Nat.le_of_not_lt narrow), refusal]

theorem placeSegments_of_fits {mapped : Board} {header : Elf.ProgramHeader} {contents : ByteArray}
    (found : reader.contents? header file = some contents)
    (fits : place + header.size ≤ board.memoryRange.stop)
    (inserted : (board.copySegment header contents place).value.insertMapping
      (segmentEntry header place) = .ok mapped) (index : Nat) (later : List Elf.ProgramHeader) :
    (Board.placeSegments reader file index place board (header :: later)).value =
      (Board.placeSegments reader file (index + 1) (pageAlign (place + header.size)) mapped
        later).value := by
  have limit := board.memoryRange.stop_le_size
  have wide : addressSpaceSize < UInt64.size := by decide
  have narrow : ¬ UInt64.size ≤ place + header.size := by omega
  simp only [Board.placeSegments, found, if_neg narrow, if_neg (Nat.not_lt_of_le fits),
    Traced.value_bind, inserted]

/-- A load that places all its segments has loaded them all, and the table had room for them. -/
theorem Holding.placeSegments (holding : board.Holding file range window placements)
    (locates : reader.Locates file) (index : Nat) {segments : List Elf.ProgramHeader}
    (above : range.start.toNat ≤ place)
    (ends : ∀ placement ∈ placements, placement.stop ≤ place)
    (room : placements.length + segments.length < 32) :
    let outcome := (placeSegments reader file index place board segments).value
    outcome.error ≠ some .mapFull ∧ (outcome.error = none →
      outcome.board.Holding file range window (placements ++ Placement.pack place segments)) := by
  induction segments generalizing board place index placements with
  | nil =>
    refine ⟨by simp [Board.placeSegments], fun _ => ?_⟩
    rw [Placement.pack, List.append_nil]
    exact holding
  | cons header later ih =>
    cases found : reader.contents? header file with
    | none => simp [Board.placeSegments, found]
    | some contents =>
      by_cases past : range.stop < place + header.size
      · rw [placeSegments_of_past found (holding.memoryRange ▸ past)]
        refine ⟨Placement.refusal_ne_mapFull _ index, fun complete => ?_⟩
        cases complete
      · have fits := Nat.le_of_not_lt past
        rw [List.length_cons] at room
        obtain ⟨mapped, inserted, mappedHolding⟩ :=
          holding.insertMapping_copySegment locates found above fits ends (by omega)
        have rest := ih mappedHolding (index + 1) (Placement.le_next above _)
          (Placement.ends_append ends)
          (by rw [List.length_append, List.length_singleton]; omega)
        rw [placeSegments_of_fits found (holding.memoryRange ▸ fits) inserted]
        rwa [List.append_assoc] at rest

end Holding

def windowEntry (window : AddressRange) : MappingEntry :=
  ⟨window.start, window.start, UInt32.ofNat window.size, 6⟩

theorem Holding.mapWindow {board : Board} {file : ByteArray} {range window : AddressRange}
    {placements : List Placement} (holding : board.Holding file range window placements)
    (room : placements.length < 32) :
    ∃ mapped, board.mapWindow = .ok mapped ∧
      (mapped.core.mmu.table 0).Holds (placements.map Placement.entry ++ [windowEntry window]) ∧
      mapped.core.mmu.control = .cleared ∧
      mapped.core.bus = board.core.bus ∧ mapped.memoryRange = range := by
  obtain ⟨control, table, rfl, memory, biosRam, arranged, carries⟩ := holding
  rw [Board.mapWindow, arranged.windowOpen, ← control]
  exact insertMapping_of_holds table (by rwa [List.length_map]) (windowEntry window)

structure Loaded (board : Board) (file : ByteArray) (range window : AddressRange)
    (placements : List Placement) : Prop where
  control : board.core.mmu.control = MmuControl.cleared.setEnabled true
  table : (board.core.mmu.table 0).Holds (placements.map Placement.entry ++ [windowEntry window])
  memoryRange : board.memoryRange = range
  carries : ∃ memory biosRam, board.Arranged memory biosRam window ∧
    ∀ placement ∈ placements, memory.Carries file placement

theorem Holding.enter {board : Board} {file : ByteArray} {range window : AddressRange}
    {placements : List Placement} (holding : board.Holding file range window placements)
    (room : placements.length < 32) (entry : Nat) :
    ∃ mapped, board.mapWindow = .ok mapped ∧
      (mapped.enter entry).value.Loaded file range window placements := by
  obtain ⟨mapped, isMapped, holds, control, sameBus, sameRange⟩ := holding.mapWindow room
  obtain ⟨memory, biosRam, arranged, carries⟩ := holding.carries
  refine ⟨mapped, isMapped, ?_, holds, sameRange, memory, biosRam, ?_, carries⟩
  · rw [← control]
    rfl
  · have mappedArranged := arranged.of_bus_eq sameBus (sameRange.trans holding.memoryRange.symm)
    exact mappedArranged.of_bus_eq rfl rfl

section Loading

variable {board : Board} {reader : Elf.Reader} {file : ByteArray} {image : Elf.Image}

theorem Fresh.placeSegments (fresh : board.Fresh) (locates : reader.Locates file)
    {segments : List Elf.ProgramHeader} (few : segments.length ≤ ProgramError.segmentLimit) :
    let place := board.memoryRange.start.toNat
    let outcome := (placeSegments reader file 0 place board segments).value
    outcome.error ≠ some .mapFull ∧ ∃ window, board.core.bus.window = some window ∧
      (outcome.error = none →
        outcome.board.Holding file board.memoryRange window (Placement.pack place segments)) := by
  intro place outcome
  obtain ⟨window, isOpen, -, holding⟩ := fresh.holding file
  have room : segments.length < 32 := Nat.lt_succ_of_le few
  obtain ⟨hasRoom, complete⟩ :=
    holding.placeSegments locates 0 (Nat.le_refl _) nofun (by simpa using room)
  exact ⟨hasRoom, window, isOpen, complete⟩

/-- A load of not too many segments into a new board fails only while it places them. -/
theorem Fresh.error_load (fresh : board.Fresh) (locates : reader.Locates file)
    (parsed : reader.parse? file = some image)
    (few : image.segments.length ≤ ProgramError.segmentLimit) :
    (board.load reader file).value.error =
      (Board.placeSegments reader file 0 board.memoryRange.start.toNat board
        image.segments).value.error := by
  obtain ⟨-, window, -, complete⟩ := fresh.placeSegments locates few
  simp only [load, parsed, if_neg (Nat.not_lt_of_le few), Traced.value_bind]
  generalize (Board.placeSegments reader file 0 board.memoryRange.start.toNat board
    image.segments).value = placed at complete
  cases failed : placed.error with
  | some error => exact failed
  | none =>
    have room : image.segments.length < 32 := Nat.lt_succ_of_le few
    obtain ⟨mapped, isMapped, -⟩ :=
      (complete failed).enter (by rwa [Placement.length_pack]) image.entry
    simp only [isMapped, Traced.value_bind, Traced.value_pure]

theorem exists_of_load (loads : (board.load reader file).value.error = none) :
    ∃ image placed mapped, reader.parse? file = some image ∧
      image.segments.length ≤ ProgramError.segmentLimit ∧
      (placeSegments reader file 0 board.memoryRange.start.toNat board image.segments).value =
        ⟨placed, none⟩ ∧
      placed.mapWindow = .ok mapped ∧
      (board.load reader file).value.board = (mapped.enter image.entry).value := by
  rw [load] at loads ⊢
  cases parsed : reader.parse? file with
  | none =>
    rw [parsed] at loads
    cases loads
  | some image =>
    simp only [parsed] at loads ⊢
    split at loads
    next => cases loads
    next few =>
      rw [if_neg few]
      rw [Traced.value_bind] at loads ⊢
      rcases outcome :
        (placeSegments reader file 0 board.memoryRange.start.toNat board image.segments).value with
        ⟨placed, error⟩
      rw [outcome] at loads
      cases error with
      | some error => cases loads
      | none =>
        dsimp only at loads ⊢
        cases isMapped : placed.mapWindow with
        | error _ =>
          rw [isMapped] at loads
          cases loads
        | ok mapped => exact ⟨image, placed, mapped, rfl, Nat.le_of_not_lt few, outcome, isMapped, rfl⟩

theorem Fresh.load (fresh : board.Fresh) (locates : reader.Locates file)
    (loads : (board.load reader file).value.error = none) :
    ∃ image window, reader.parse? file = some image ∧ board.core.bus.window = some window ∧
      (board.load reader file).value.board.Loaded file board.memoryRange window
        (Placement.pack board.memoryRange.start.toNat image.segments) := by
  obtain ⟨image, placed, mapped, parsed, few, complete, isMapped, same⟩ := exists_of_load loads
  obtain ⟨-, window, isOpen, holding⟩ := fresh.placeSegments locates few
  rw [complete] at holding
  have room : image.segments.length < 32 := Nat.lt_succ_of_le few
  obtain ⟨entered, isEntered, loaded⟩ :=
    (holding rfl).enter (by rwa [Placement.length_pack]) image.entry
  have unique : entered = mapped := Except.ok.inj (isEntered.symm.trans isMapped)
  rw [unique] at loaded
  rw [same]
  exact ⟨image, window, parsed, isOpen, loaded⟩

end Loading

end Board

end RiscBoard
