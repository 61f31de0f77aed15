import Mathlib.Data.List.TakeWhile
import RiscBoard.Proofs.Board.ImageView

/-!
Segments that main memory has no room for. Packed as unbounded numbers, the first segment that goes past
the end of main memory ends a load, and a load without such a segment succeeds. The error is that the
segment is too large, unless the end of its place is not even a 64-bit number: then the sum that is to be
compared with the end of memory overflows (`load_refuses_first_past`). Only 64-bit files have room for
such a size.
-/

namespace RiscBoard

namespace Placement

structure FirstPast (placements : List Placement) (limit index : Nat) (placement : Placement) :
    Prop where
  placed : placements[index]? = some placement
  past : limit < placement.stop
  first : ∀ earlier ∈ placements.take index, earlier.stop ≤ limit

def within (limit : Nat) (placements : List Placement) : List Placement :=
  placements.takeWhile fun placement => placement.stop ≤ limit

/-- The machine numbers that a segment is placed by are the numbers that they stand for: the end that the
next place is rounded up from, the end in virtual memory that is logged, the bounds of the entry, where
virtual addresses have 32 bits, and the addresses of what is copied and of what is cleared, if there is
any of it. -/
structure Exact (placement : Placement) : Prop where
  rounded : placement.stop + (Board.pageSize - 1) < UInt64.size
  logged : (UInt64.ofNat placement.header.virtualAddress +
      UInt64.ofNat placement.header.size).toNat =
    placement.header.virtualAddress + placement.header.size
  base : placement.entry.virtualBase.toNat = placement.header.virtualStart
  size : placement.entry.size.toNat = placement.header.size
  start : 0 < placement.header.size → placement.entry.physicalBase.toNat = placement.place
  tail : placement.header.fileSize < placement.header.size →
    (UInt32.ofNat (placement.place + placement.header.fileSize)).toNat =
      placement.place + placement.header.fileSize

section FirstPast

variable {first placement : Placement} {later placements : List Placement} {limit index : Nat}

theorem FirstPast.eq_head (isFirst : FirstPast (first :: later) limit index placement)
    (past : limit < first.stop) : index = 0 ∧ placement = first := by
  obtain ⟨placed, -, before⟩ := isFirst
  cases index with
  | zero => exact ⟨rfl, (Option.some.inj placed).symm⟩
  | succ index =>
    have fits := before first (by rw [List.take_succ_cons]; exact List.mem_cons_self)
    omega

theorem FirstPast.tail (isFirst : FirstPast (first :: later) limit index placement)
    (fits : first.stop ≤ limit) :
    ∃ number, index = number + 1 ∧ FirstPast later limit number placement := by
  obtain ⟨placed, past, before⟩ := isFirst
  cases index with
  | zero =>
    rw [List.getElem?_cons_zero, Option.some.injEq] at placed
    subst placed
    omega
  | succ number =>
    rw [List.take_succ_cons] at before
    refine ⟨number, rfl, placed, past, fun earlier member => ?_⟩
    exact before earlier (List.mem_cons_of_mem first member)

/-- No segment starts past a limit that is a whole page, unless it comes after one that goes past it. -/
theorem FirstPast.place_le {place : Nat} {headers : List Elf.ProgramHeader} {page : Nat}
    (isFirst : FirstPast (pack place headers) limit index placement) (above : place ≤ page)
    (limited : limit ≤ page) (whole : page % Board.pageSize = 0) : placement.place ≤ page := by
  induction headers generalizing place index with
  | nil => cases isFirst.placed
  | cons header headers ih =>
    rw [pack] at isFirst
    by_cases past : limit < place + header.size
    · rw [(isFirst.eq_head past).2]
      exact above
    · obtain ⟨number, -, isFirst⟩ := isFirst.tail (Nat.le_of_not_lt past)
      refine ih isFirst ?_
      unfold Board.pageAlign Board.pageSize at *
      omega

theorem mem_of_mem_within (member : placement ∈ within limit placements) :
    placement ∈ placements ∧ placement.stop ≤ limit := by
  have fits := List.mem_takeWhile_imp member
  exact ⟨(List.takeWhile_sublist _).subset member, of_decide_eq_true fits⟩

end FirstPast

end Placement

namespace Board

section Placing

variable {board : Board} {reader : Elf.Reader} {file : ByteArray} {range window : AddressRange}
  {placements : List Placement} {place : Nat}

/-- Placing segments ends at the first one that goes past the end of main memory, and nowhere if there
is none. -/
theorem Holding.error_placeSegments (holding : board.Holding file range window placements)
    (locates : reader.Locates file) (index : Nat) {segments : List Elf.ProgramHeader}
    (above : range.start.toNat ≤ place)
    (ends : ∀ placement ∈ placements, placement.stop ≤ place)
    (room : placements.length + segments.length < 32)
    (inFile : ∀ header ∈ segments, (reader.extent header).fits file = true) :
    let error := (Board.placeSegments reader file index place board segments).value.error
    (∀ number placement,
      Placement.FirstPast (Placement.pack place segments) range.stop number placement →
        error = some (placement.refusal (index + number))) ∧
    ((∀ placement ∈ Placement.pack place segments, placement.stop ≤ range.stop) →
      error = none) := by
  induction segments generalizing board place index placements with
  | nil => exact ⟨fun number placement isFirst => (nomatch isFirst.placed), fun _ => rfl⟩
  | cons header later ih =>
    have found : reader.contents? header file = some ((reader.extent header).slice file) :=
      if_pos (inFile header List.mem_cons_self)
    rw [Placement.pack]
    by_cases past : range.stop < place + header.size
    · rw [placeSegments_of_past found (holding.memoryRange ▸ past)]
      constructor
      · intro number placement isFirst
        obtain ⟨rfl, rfl⟩ := isFirst.eq_head past
        rfl
      · intro fit
        have fits := fit _ List.mem_cons_self
        exact absurd past (Nat.not_lt_of_le fits)
    · have fits := Nat.le_of_not_lt past
      rw [List.length_cons] at room
      obtain ⟨mapped, inserted, mappedHolding⟩ :=
        holding.insertMapping_copySegment locates found above fits ends (by omega)
      obtain ⟨refused, complete⟩ := ih mappedHolding (index + 1) (Placement.le_next above _)
        (Placement.ends_append ends) (by rw [List.length_append, List.length_singleton]; omega)
        fun other member => inFile other (List.mem_cons_of_mem header member)
      rw [placeSegments_of_fits found (holding.memoryRange ▸ fits) inserted]
      constructor
      · intro number placement isFirst
        obtain ⟨laterNumber, rfl, isLater⟩ := isFirst.tail fits
        rw [refused laterNumber placement isLater, Nat.add_assoc, Nat.add_comm 1]
      · intro fit
        exact complete fun placement member => fit placement (List.mem_cons_of_mem _ member)

end Placing

section Loading

variable {board : Board} {reader : Elf.Reader} {file : ByteArray} {image : Elf.Image}
  {placement : Placement}

/-- What lies in main memory is placed by exact numbers, but for the end in virtual memory. -/
theorem Fresh.exact_iff (fresh : board.Fresh)
    (above : board.memoryRange.start.toNat ≤ placement.place)
    (below : placement.stop ≤ board.memoryRange.stop) :
    placement.Exact ↔
      placement.header.virtualAddress + placement.header.size < UInt64.size := by
  obtain ⟨-, memory, biosRam, window, arranged⟩ := fresh.arranged
  have room := arranged.size_lt
  have limit := memory.range.stop_le_size
  rw [← arranged.memoryRange] at above below
  have size : addressSpaceSize = 2 ^ 32 := rfl
  have wide : UInt64.size = 2 ^ 64 := rfl
  have page : Board.pageSize = 2 ^ 12 := rfl
  have stop : placement.stop = placement.place + placement.header.size := rfl
  constructor
  · intro exact
    have logged := exact.logged
    rw [← logged]
    exact UInt64.toNat_lt _
  · intro fits
    refine ⟨by omega, ?_, UInt32.toNat_ofNat', ?_, fun some => ?_, fun some => ?_⟩
    · rw [UInt64.toNat_add, UInt64.toNat_ofNat', UInt64.toNat_ofNat']
      omega
    · have small : placement.header.size < addressSpaceSize := by omega
      exact UInt32.toNat_ofNat_of_lt' small
    · have small : placement.place < addressSpaceSize := by omega
      exact UInt32.toNat_ofNat_of_lt' small
    · have small : placement.place + placement.header.fileSize < addressSpaceSize := by omega
      exact UInt32.toNat_ofNat_of_lt' small

theorem Fresh.refused_or_loaded (fresh : board.Fresh) (locates : reader.Locates file)
    (parsed : reader.parse? file = some image)
    (few : image.segments.length ≤ ProgramError.segmentLimit)
    (inFile : ∀ header ∈ image.segments, (reader.extent header).fits file = true) :
    let placements := Placement.pack board.memoryRange.start.toNat image.segments
    (∀ index placement, Placement.FirstPast placements board.memoryRange.stop index placement →
      (board.load reader file).value.error = some (placement.refusal index)) ∧
    ((∀ placement ∈ placements, placement.stop ≤ board.memoryRange.stop) →
      (board.load reader file).value.error = none) := by
  have room : image.segments.length < 32 := Nat.lt_succ_of_le few
  obtain ⟨window, -, -, holding⟩ := fresh.holding file
  have placing :=
    holding.error_placeSegments locates 0 (Nat.le_refl _) nofun (by simpa using room) inFile
  rw [← fresh.error_load locates parsed few] at placing
  simpa only [Nat.zero_add] using placing

structure RefusesOversized (board : Board) (reader : Elf.Reader) (file : ByteArray)
    (placements : List Placement) : Prop where
  refused : ∀ index placement,
    Placement.FirstPast placements board.memoryRange.stop index placement →
    (board.load reader file).value.error = some (.segmentTooLarge index placement.header.size)
  accepted : (∀ placement ∈ placements, placement.stop ≤ board.memoryRange.stop) →
    (board.load reader file).value.error = none
  exact : ∀ placement ∈ Placement.within board.memoryRange.stop placements, placement.Exact

/-- Two kinds of sums are 64-bit numbers: the end of the place of the first segment that goes past the
limit, and the ends of those before it in virtual memory. -/
structure SumsFit (placements : List Placement) (limit : Nat) : Prop where
  place : ∀ index placement, Placement.FirstPast placements limit index placement →
    placement.stop < UInt64.size
  virtual : ∀ placement ∈ Placement.within limit placements,
    placement.header.virtualAddress + placement.header.size < UInt64.size

theorem Fresh.refusesOversized_iff (fresh : board.Fresh) (locates : reader.Locates file)
    (parsed : reader.parse? file = some image)
    (few : image.segments.length ≤ ProgramError.segmentLimit)
    (inFile : ∀ header ∈ image.segments, (reader.extent header).fits file = true) :
    let placements := Placement.pack board.memoryRange.start.toNat image.segments
    board.RefusesOversized reader file placements ↔ SumsFit placements board.memoryRange.stop := by
  intro placements
  obtain ⟨refused, accepted⟩ := fresh.refused_or_loaded locates parsed few inFile
  have exact : ∀ placement ∈ Placement.within board.memoryRange.stop placements,
      placement.Exact ↔
        placement.header.virtualAddress + placement.header.size < UInt64.size := by
    intro placement member
    obtain ⟨packed, below⟩ := Placement.mem_of_mem_within member
    exact fresh.exact_iff (Placement.le_place_of_mem packed) below
  constructor
  · intro refuses
    refine ⟨fun index placement isFirst => ?_, fun placement member => ?_⟩
    · have tooLarge := refuses.refused index placement isFirst
      rw [refused index placement isFirst, Placement.refusal] at tooLarge
      by_cases narrow : placement.stop < UInt64.size
      · exact narrow
      · rw [if_neg narrow] at tooLarge
        cases tooLarge
    · exact (exact placement member).1 (refuses.exact placement member)
  · intro sums
    refine ⟨fun index placement isFirst => ?_, accepted, fun placement member => ?_⟩
    · rw [refused index placement isFirst, Placement.refusal,
        if_pos (sums.place index placement isFirst)]
    · exact (exact placement member).2 (sums.virtual placement member)

theorem sumsFit_of_bits32 (range : AddressRange) (isNarrow : reader.Narrow file)
    (parsed : reader.parse? file = some image) (bits32 : Elf.fileClass? file = some .bits32) :
    SumsFit (Placement.pack range.start.toNat image.segments) range.stop := by
  have narrow : ∀ placement ∈ Placement.pack range.start.toNat image.segments,
      placement.header.virtualAddress < addressSpaceSize ∧
        placement.header.size < addressSpaceSize := by
    intro placement member
    have listed : placement.header ∈ image.segments := by
      rw [← Placement.map_header_pack range.start.toNat image.segments]
      exact List.mem_map_of_mem member
    obtain ⟨address, fileSize, memorySize⟩ :=
      isNarrow bits32 image parsed placement.header (List.mem_filter.1 listed).1
    exact ⟨address, Nat.max_lt.2 ⟨memorySize, fileSize⟩⟩
  have size : addressSpaceSize = 2 ^ 32 := rfl
  have wide : UInt64.size = 2 ^ 64 := rfl
  refine ⟨fun index placement isFirst => ?_, fun placement member => ?_⟩
  · have small := narrow placement (List.mem_of_getElem? isFirst.placed)
    have place := isFirst.place_le (Nat.le_of_lt range.start.toNat_lt) range.stop_le_size (by decide)
    rw [Placement.stop]
    omega
  · have small := narrow placement (Placement.mem_of_mem_within member).1
    omega

/-- A load into a new board stops at the first segment that goes past the end of main memory. Whether it
says that this segment is too large, and computes with exact numbers on the way, only depends on two
kinds of sums being 64-bit numbers. In a 32-bit file they always are. -/
theorem load_refuses_first_past (fresh : board.Fresh) (locates : reader.Locates file)
    (parsed : reader.parse? file = some image)
    (few : image.segments.length ≤ ProgramError.segmentLimit)
    (inFile : ∀ header ∈ image.segments, (reader.extent header).fits file = true) :
    let placements := Placement.pack board.memoryRange.start.toNat image.segments
    let limit := board.memoryRange.stop
    (∀ index placement, Placement.FirstPast placements limit index placement →
      (board.load reader file).value.error = some (placement.refusal index)) ∧
    ((∀ placement ∈ placements, placement.stop ≤ limit) →
      (board.load reader file).value.error = none) ∧
    (board.RefusesOversized reader file placements ↔ SumsFit placements limit) ∧
    (reader.Narrow file → Elf.fileClass? file = some .bits32 →
      board.RefusesOversized reader file placements) := by
  intro placements limit
  obtain ⟨refused, accepted⟩ := fresh.refused_or_loaded locates parsed few inFile
  have exactly := fresh.refusesOversized_iff locates parsed few inFile
  exact ⟨refused, accepted, exactly,
    fun isNarrow bits32 =>
      exactly.2 (sumsFit_of_bits32 board.memoryRange isNarrow parsed bits32)⟩

end Loading

theorem overlapping_refuses_third :
    ∃ made image, create { BoardConfig.standard with memorySize := 0x1000 } = .ok made ∧
      Elf.Reader.standard.parse? overlappingFile = some image ∧
      made.value.RefusesOversized .standard overlappingFile
        (Placement.pack made.value.memoryRange.start.toNat image.segments) ∧
      (made.value.load .standard overlappingFile).value.error = some (.segmentTooLarge 2 8) := by
  have parsed : Elf.Reader.standard.parse? overlappingFile = some ⟨0x1000,
      [⟨1, 4, 148, 0x1000, 4, 8⟩, ⟨1, 7, 148, 0x1000, 0, 0⟩, ⟨1, 6, 148, 0x1004, 8, 8⟩]⟩ := by
    decide +kernel
  have page : (create { BoardConfig.standard with memorySize := 0x1000 }).toOption.any
      (fun made => decide (made.value.memoryRange.start = 0x80000000 ∧
        made.value.memoryRange.stop = 0x80001000)) = true := by
    decide +kernel
  obtain ⟨made, accepted, page⟩ := exists_of_any page
  obtain ⟨start, stop⟩ := of_decide_eq_true page
  obtain ⟨refused, -, -, narrow⟩ :=
    load_refuses_first_past (.created accepted) (Elf.Reader.locates_standard _) parsed (by decide)
      (by decide +kernel)
  have third := refused 2 ⟨⟨1, 6, 148, 0x1004, 8, 8⟩, 0x80001000⟩
  rw [start, stop] at third
  exact ⟨made, _, accepted, parsed, narrow (Elf.Reader.narrow_standard _) (by decide +kernel),
    third ⟨rfl, by decide, by decide⟩⟩

def hugeFile : ByteArray := Bytes.ofWords
  [0x464c457f, 0x00010102, 0, 0, 2, 1, 0x1000, 0, 64, 0, 0, 0, 0, 0x00380040, 0x00400001, 0,
    1, 6, 120, 0, 0x1000, 0, 0x1000, 0, 0, 0, 0xffffffff, 0xffffffff, 4, 0]

/-- The sum of this size and an address is no 64-bit number, and the segment is not refused as too
large. -/
theorem huge_not_refused :
    ¬ ∀ (board : Board) (reader : Elf.Reader) (file : ByteArray) (image : Elf.Image),
      board.Fresh → reader.Locates file → reader.Narrow file →
      reader.parse? file = some image → image.segments.length ≤ ProgramError.segmentLimit →
      (∀ header ∈ image.segments, (reader.extent header).fits file = true) →
      board.RefusesOversized reader file
        (Placement.pack board.memoryRange.start.toNat image.segments) := by
  intro always
  have parsed : Elf.Reader.standard.parse? hugeFile =
      some ⟨0x1000, [⟨1, 6, 120, 0x1000, 0, 0xffffffffffffffff⟩]⟩ := by
    decide +kernel
  have overflows : (create { BoardConfig.standard with memorySize := 0x1000 }).toOption.any
      (fun made => decide ((made.value.load .standard hugeFile).value.error =
        some (.placeOverflow 0 0xffffffffffffffff))) = true := by
    decide +kernel
  obtain ⟨made, accepted, overflows⟩ := exists_of_any overflows
  have refuses := always made.value .standard hugeFile _ (.created accepted)
    (Elf.Reader.locates_standard _) (Elf.Reader.narrow_standard _) parsed (by decide)
    (by decide +kernel)
  have past : made.value.memoryRange.stop <
      made.value.memoryRange.start.toNat + 0xffffffffffffffff :=
    calc made.value.memoryRange.stop
        ≤ addressSpaceSize := made.value.memoryRange.stop_le_size
      _ < 0xffffffffffffffff := by decide
      _ ≤ made.value.memoryRange.start.toNat + 0xffffffffffffffff := Nat.le_add_left ..
  have tooLarge := refuses.refused 0 _ ⟨rfl, past, nofun⟩
  rw [of_decide_eq_true overflows] at tooLarge
  cases tooLarge

end Board

end RiscBoard
