import RiscBoard.Proofs.Board.ImageView
import RiscBoard.Proofs.Core.Cycle
import RiscBoard.Proofs.Elf.Listing

/-!
Fetching what was listed. A loaded core finds at the address of each line of a listing the word of this
line, unless an earlier segment spans the address. For this segments start at whole words of main
memory, wherever they start in virtual memory (`listing_agrees`).
-/

namespace RiscBoard

namespace Core

def FetchesAt (core : Core) (address word : UInt32) : Prop :=
  (core.setPc address).fetchFault? = none ∧
    (core.setPc address).fetch.value.pipeline = core.pipeline.shiftIn word

theorem fetchesAt_of_translate {core : Core} {address physical : UInt32}
    (translated : core.mmu.translate address .exec .execute = .ok physical) :
    core.FetchesAt address (core.bus.read physical .exec).value.1 := by
  have atCounter : (core.setPc address).mmu.translate (core.setPc address).pc .exec .execute =
      .ok physical := by
    rw [setPc, pc, RegisterFile.pc_setPc]
    exact translated
  refine ⟨(fetchFault?_eq_none_iff _).2 ⟨physical, atCounter⟩, ?_⟩
  rw [value_fetch_of_ok atCounter]
  rfl

end Core

theorem AccessSize.truncate_exec (value : UInt32) : AccessSize.exec.truncate value = value := by
  rw [truncate, mask, ← UInt32.toNat_inj, UInt32.toNat_and]
  show value.toNat &&& 2 ^ 32 - 1 = value.toNat
  rw [Nat.and_two_pow_sub_one_eq_mod, Nat.mod_eq_of_lt value.toNat_lt]

theorem Mmu.translate_exec {mmu : Mmu} {address physical : UInt32}
    (translated : mmu.translate address .byte .execute = .ok physical)
    (aligned : physical.toNat % 4 = 0) : mmu.translate address .exec .execute = .ok physical := by
  rw [Board.translate_byte] at translated
  rw [translate, translated]
  simp only [alignmentFault?, AccessSize.isAligned, AccessSize.bytes, aligned, beq_self_eq_true,
    if_true]

namespace Placement

theorem place_mod_four {place : Nat} {headers : List Elf.ProgramHeader} {placement : Placement}
    (aligned : place % 4 = 0) (member : placement ∈ pack place headers) :
    placement.place % 4 = 0 := by
  induction headers generalizing place with
  | nil => cases member
  | cons header later ih =>
    cases member with
    | head => exact aligned
    | tail _ member =>
      refine ih ?_ member
      unfold Board.pageAlign Board.pageSize
      omega

theorem find?_pack (place : Nat) {index : Nat} {headers : List Elf.ProgramHeader}
    {header : Elf.ProgramHeader} {address : UInt32} (listed : headers[index]? = some header)
    (spans : header.spans address = true)
    (first : ∀ earlier ∈ headers.take index, earlier.spans address = false) :
    ∃ placement, placement.header = header ∧
      (pack place headers).find? (fun other => other.header.spans address) = some placement := by
  obtain ⟨inside, same⟩ := List.getElem?_eq_some_iff.1 listed
  have found : headers.find? (·.spans address) = some header := by
    rw [List.find?_eq_some_iff_getElem]
    refine ⟨spans, index, inside, same, fun earlier before => ?_⟩
    rw [first _ (List.mem_take_iff_getElem.2 ⟨earlier, by omega, rfl⟩)]
    rfl
  rw [← map_header_pack place headers, List.find?_map, Option.map_eq_some_iff] at found
  obtain ⟨placement, isFound, isHeader⟩ := found
  exact ⟨placement, isHeader, isFound⟩

end Placement

namespace Elf.ProgramHeader

variable {header : ProgramHeader} {position : Nat}

theorem toNat_wordAddress (fits : header.virtualAddress + header.fileSize ≤ addressSpaceSize)
    (inside : position < header.fileSize / 4) :
    (header.wordAddress position).toNat = header.virtualStart + 4 * position := by
  have size : addressSpaceSize = 2 ^ 32 := rfl
  rw [wordAddress, UInt32.toNat_add, UInt32.toNat_ofNat', UInt32.toNat_ofNat', virtualStart, size]
  omega

theorem spans_wordAddress (fits : header.virtualAddress + header.fileSize ≤ addressSpaceSize)
    (inside : position < header.fileSize / 4) :
    header.spans (header.wordAddress position) = true := by
  have reach : header.fileSize ≤ header.size := Nat.le_max_right ..
  rw [spans_iff, toNat_wordAddress fits inside]
  omega

end Elf.ProgramHeader

theorem Ram.Carries.read_word {memory : Ram} {file : ByteArray} {placement : Placement}
    (carries : memory.Carries file placement) {position : Nat}
    (inside : position < placement.header.fileSize / 4) :
    memory.contents.read (placement.place + 4 * position - memory.range.start.toNat) .exec =
      placement.header.word file position := by
  obtain ⟨above, -, byteAt⟩ := carries
  have reach : placement.header.fileSize ≤ placement.header.size := Nat.le_max_right ..
  have fromFile := placement.header.value_byte_eq file
    (show 4 * position + AccessSize.exec.bytes ≤ placement.header.fileSize by
      show 4 * position + 4 ≤ _
      omega)
  rw [Contents.read, Elf.ProgramHeader.word]
  refine Eq.trans (Bytes.value_congr fun distance within => ?_) fromFile
  have within : distance < 4 := within
  rw [← byteAt _ (by omega)]
  congr 1
  omega

namespace Board

section Loaded

variable {board : Board} {file : ByteArray} {range window : AddressRange}
  {placements : List Placement} {placement : Placement} {position : Nat}

theorem Loaded.translate (loaded : board.Loaded file range window placements) (address : UInt32)
    (kind : AccessKind) :
    board.core.mmu.translate address .byte kind =
      imageTranslation placements window address kind := by
  obtain ⟨memory, biosRam, arranged, carries⟩ := loaded.carries
  exact translate_of_holds loaded.control loaded.table
    (fun placement member => arranged.size_lt_of_carries (carries placement member))
    arranged.windowWhole address kind

/-- A word of a loaded segment is found at its address, if the segment may be executed. -/
theorem Loaded.fetchesAt (loaded : board.Loaded file range window placements)
    (found : placements.find?
      (fun other => other.header.spans (placement.header.wordAddress position)) = some placement)
    (executable : placement.header.isExecutable = true) (aligned : placement.place % 4 = 0)
    (fits : placement.header.virtualAddress + placement.header.fileSize ≤ addressSpaceSize)
    (inside : position < placement.header.fileSize / 4) :
    board.core.FetchesAt (placement.header.wordAddress position)
      (placement.header.word file position) := by
  obtain ⟨memory, biosRam, arranged, carries⟩ := loaded.carries
  have carried := carries placement (List.mem_of_find?_eq_some found)
  have reach : placement.header.fileSize ≤ placement.header.size := Nat.le_max_right ..
  have above : memory.range.start.toNat ≤ placement.place + 4 * position :=
    Nat.le_trans carried.above (Nat.le_add_right ..)
  have below : placement.place + 4 * position < memory.range.stop := by
    have ends := carried.below
    unfold Placement.stop at ends
    omega
  have physical : placement.physical (placement.header.wordAddress position) =
      UInt32.ofNat (placement.place + 4 * position) := by
    rw [Placement.physical, Elf.ProgramHeader.toNat_wordAddress fits inside, Nat.add_sub_cancel_left]
  have isAddress : (UInt32.ofNat (placement.place + 4 * position)).toNat =
      placement.place + 4 * position :=
    toNat_place memory (Nat.succ_le_of_lt below) Nat.one_pos
  have permitted : placement.header.permits .execute = true := executable
  have translated := loaded.translate (placement.header.wordAddress position) .execute
  rw [imageTranslation, found] at translated
  simp only [permitted, if_true, physical] at translated
  have fetched := Core.fetchesAt_of_translate (Mmu.translate_exec translated (by omega))
  rwa [arranged.value_read .exec above below, AccessSize.truncate_exec,
    carried.read_word inside] at fetched

end Loaded

/-- What is listed of a file is what a board runs that has loaded it. A complete listing has the lines
of the executable segments in their order. At the address of each line a fetch brings its word, if the
segment does not go on past the last address and no earlier segment has the address; and whatever core
executes the word does so as the text says. -/
theorem listing_agrees {board : Board} (fresh : board.Fresh)
    (aligned : board.memoryRange.start.toNat % 4 = 0) {reader : Elf.Reader} {file : ByteArray}
    (locates : reader.Locates file) (complete : (reader.listing file).error = none)
    (loads : (board.load reader file).value.error = none) :
    ∃ image, reader.parse? file = some image ∧
      (reader.listing file).lines = image.segments.zipIdx.flatMap
        (fun (header, index) => header.listing file index) ∧
      (∀ index header, image.segments[index]? = some header → header.isExecutable = true →
        header.virtualAddress + header.fileSize ≤ addressSpaceSize →
        ∀ position < header.fileSize / 4,
          (∀ earlier ∈ image.segments.take index,
            earlier.spans (header.wordAddress position) = false) →
          (board.load reader file).value.board.core.FetchesAt (header.wordAddress position)
            (header.word file position)) ∧
      ∀ core word, Core.DoesAsListed core word := by
  obtain ⟨image, window, parsed, -, loaded⟩ := fresh.load locates loads
  refine ⟨image, parsed, ?_, ?_, Core.doesAsListed⟩
  · rw [Elf.Reader.listing, parsed] at complete ⊢
    exact Elf.Listing.lines_ofSegments locates complete
  · intro index header listed executable fits position inside first
    have spans := Elf.ProgramHeader.spans_wordAddress fits inside
    obtain ⟨placement, rfl, found⟩ :=
      Placement.find?_pack board.memoryRange.start.toNat listed spans first
    have placed := Placement.place_mod_four aligned (List.mem_of_find?_eq_some found)
    exact loaded.fetchesAt found executable placed fits inside

/-- A file with three segments, of which the last two may be executed. The first word of the second
one lies in the first one, and the third one lies in the second one. -/
def shadowingFile : ByteArray := Bytes.ofWords
  [0x464c457f, 0x00010101, 0, 0, 2, 1, 0x1000, 52, 0, 0, 0x00200034, 0x00280003, 0,
    1, 148, 0x1000, 0x1000, 4, 8, 4, 4,
    1, 148, 0x1006, 0x1006, 10, 10, 5, 4,
    1, 152, 0x100a, 0x100a, 4, 4, 1, 4,
    0x00801000, 0x08000000, 0]

/-- The second word of the second segment is fetched as it is listed, and rejected. -/
theorem shadowing_listing_agrees :
    ∃ made, create { BoardConfig.standard with memorySize := 0x4000 } = .ok made ∧
      made.value.memoryRange.start.toNat % 4 = 0 ∧
      (Elf.Reader.standard.listing shadowingFile).error = none ∧
      (made.value.load .standard shadowingFile).value.error = none ∧
      (Elf.Reader.standard.listing shadowingFile).lines =
        ["segment 1:", "00001006:  00801000  add a0, r0, at",
          "0000100a:  08000000  .word 0x08000000", "segment 2:",
          "0000100a:  08000000  .word 0x08000000"] ∧
      (made.value.load .standard shadowingFile).value.board.core.FetchesAt 0x100a 0x08000000 ∧
      ∀ core, Core.Rejects core 0x08000000 := by
  have succeeds : (create { BoardConfig.standard with memorySize := 0x4000 }).toOption.any
      (fun made => decide (made.value.memoryRange.start.toNat % 4 = 0 ∧
        (made.value.load .standard shadowingFile).value.error = none)) = true := by
    decide +kernel
  have listing : Elf.Reader.standard.listing shadowingFile =
      ⟨["segment 1:", "00001006:  00801000  add a0, r0, at",
        "0000100a:  08000000  .word 0x08000000", "segment 2:",
        "0000100a:  08000000  .word 0x08000000"], none⟩ := by
    decide +kernel
  have segments : (Elf.Reader.standard.parse? shadowingFile).map Elf.Image.segments =
      some [⟨1, 4, 148, 0x1000, 4, 8⟩, ⟨1, 5, 148, 0x1006, 10, 10⟩, ⟨1, 1, 152, 0x100a, 4, 4⟩] := by
    decide +kernel
  obtain ⟨made, accepted, succeeds⟩ := exists_of_any succeeds
  obtain ⟨aligned, loads⟩ := of_decide_eq_true succeeds
  obtain ⟨image, parsed, -, fetches, told⟩ :=
    listing_agrees (.created accepted) aligned (Elf.Reader.locates_standard shadowingFile)
      (by rw [listing]) loads
  rw [parsed] at segments
  have segments := Option.some.inj segments
  have second : image.segments[1]? = some ⟨1, 5, 148, 0x1006, 10, 10⟩ := by rw [segments]; rfl
  have fetched := fetches 1 _ second rfl (by decide) 1 (by decide) (by rw [segments]; decide)
  have word : Elf.ProgramHeader.word ⟨1, 5, 148, 0x1006, 10, 10⟩ shadowingFile 1 = 0x08000000 := by
    decide +kernel
  rw [word] at fetched
  refine ⟨made, accepted, aligned, by rw [listing], loads, by rw [listing], fetched, fun core => ?_⟩
  exact (told core 0x08000000).rejected.1 (by decide +kernel)

end Board

end RiscBoard
