import RiscBoard.Elf.Encoding
import RiscBoard.Elf.Load
import RiscBoard.Proofs.Mmu.Insertion

/-!
Where the segments of a file go. They are packed into physical memory one after another, each from a
page boundary on, so that no two of them share a byte. The table entry of a placed segment covers the
virtual addresses of the segment, permits what its flags permit, and leads to its place.
-/

namespace RiscBoard

namespace Elf.ProgramHeader

def virtualStart (header : ProgramHeader) : Nat := header.virtualAddress % addressSpaceSize

/-- Whether the address is one of the segment's, which do not go on at address 0 past the last
one. -/
def spans (header : ProgramHeader) (address : UInt32) : Bool :=
  header.virtualStart ≤ address.toNat && address.toNat < header.virtualStart + header.size

theorem spans_iff (header : ProgramHeader) (address : UInt32) :
    header.spans address = true ↔
      header.virtualStart ≤ address.toNat ∧
        address.toNat < header.virtualStart + header.size := by
  rw [spans, Bool.and_eq_true, decide_eq_true_iff, decide_eq_true_iff]

def permits (header : ProgramHeader) (kind : AccessKind) : Bool :=
  header.flags.testBit kind.bit

/-- A byte of the segment: one of the file's as far as these go, and zero after them. -/
def byte (header : ProgramHeader) (file : ByteArray) (distance : Nat) : UInt8 :=
  if distance < header.fileSize then Bytes.byteAt file (header.offset + distance) else 0

end Elf.ProgramHeader

namespace Elf.Reader

/-- Contents that lie in the file are the bytes that the header of their segment states. -/
def Locates (reader : Reader) (file : ByteArray) : Prop :=
  ∀ header, (reader.extent header).fits file = true →
    reader.extent header = ⟨header.offset, header.fileSize⟩

/-- Addresses and sizes in a 32-bit file are 32-bit numbers. -/
def Narrow (reader : Reader) (file : ByteArray) : Prop :=
  fileClass? file = some .bits32 → ∀ image, reader.parse? file = some image →
    ∀ header ∈ image.headers, header.virtualAddress < addressSpaceSize ∧
      header.fileSize < addressSpaceSize ∧ header.memorySize < addressSpaceSize

theorem contents_of_contents? {reader : Reader} {header : ProgramHeader} {file contents : ByteArray}
    (locates : reader.Locates file) (found : reader.contents? header file = some contents) :
    contents.size = header.fileSize ∧ Bytes.byteAt contents = header.byte file := by
  unfold contents? at found
  split at found
  next fits =>
    rw [locates header fits] at found fits
    have fits : header.offset + header.fileSize ≤ file.size := of_decide_eq_true fits
    have size : contents.size = header.fileSize := by
      rw [← Option.some.inj found, Extent.slice, ByteArray.size_extract, Nat.min_eq_left fits]
      exact Nat.add_sub_cancel_left ..
    refine ⟨size, funext fun distance => ?_⟩
    rw [ProgramHeader.byte]
    split
    next inside =>
      have inContents : distance < contents.size := by omega
      have inFile : header.offset + distance < file.size := by omega
      rw [Bytes.byteAt, dif_pos inContents, Bytes.byteAt, dif_pos inFile]
      simp only [← Option.some.inj found, Extent.slice]
      exact ByteArray.getElem_extract _
    next past => exact Bytes.byteAt_of_size_le (by omega)
  next => cases found

end Elf.Reader

structure Placement where
  header : Elf.ProgramHeader
  place : Nat

namespace Placement

def stop (placement : Placement) : Nat := placement.place + placement.header.size

def refusal (placement : Placement) (index : Nat) : ProgramError :=
  if placement.stop < UInt64.size then .segmentTooLarge index placement.header.size
  else .placeOverflow index placement.header.size

def pack (place : Nat) : List Elf.ProgramHeader → List Placement
  | [] => []
  | header :: later => ⟨header, place⟩ :: pack (Board.pageAlign (place + header.size)) later

def entry (placement : Placement) : MappingEntry :=
  Board.segmentEntry placement.header placement.place

def physical (placement : Placement) (address : UInt32) : UInt32 :=
  UInt32.ofNat (placement.place + (address.toNat - placement.header.virtualStart))

theorem refusal_ne_mapFull (placement : Placement) (index : Nat) :
    some (placement.refusal index) ≠ some .mapFull := by
  unfold refusal
  split
  · nofun
  · nofun

@[simp] theorem length_pack (place : Nat) (headers : List Elf.ProgramHeader) :
    (pack place headers).length = headers.length := by
  induction headers generalizing place with
  | nil => rfl
  | cons header later ih => rw [pack, List.length_cons, List.length_cons, ih]

theorem map_header_pack (place : Nat) (headers : List Elf.ProgramHeader) :
    (pack place headers).map header = headers := by
  induction headers generalizing place with
  | nil => rfl
  | cons header later ih => rw [pack, List.map_cons, ih]

theorem le_pageAlign (address : Nat) : address ≤ Board.pageAlign address := by
  unfold Board.pageAlign Board.pageSize
  omega

theorem le_next {start place : Nat} (above : start ≤ place) (size : Nat) :
    start ≤ Board.pageAlign (place + size) := by
  have next := le_pageAlign (place + size)
  omega

theorem ends_append {placements : List Placement} {place : Nat} {header : Elf.ProgramHeader}
    (ends : ∀ placement ∈ placements, placement.stop ≤ place) :
    ∀ placement ∈ placements ++ [⟨header, place⟩],
      placement.stop ≤ Board.pageAlign (place + header.size) := by
  intro placement member
  rcases List.mem_append.1 member with earlier | last
  · exact le_next (ends placement earlier) header.size
  · rw [List.mem_singleton.1 last]
    exact le_pageAlign (place + header.size)

theorem le_place_of_mem {place : Nat} {headers : List Elf.ProgramHeader} {placement : Placement}
    (member : placement ∈ pack place headers) : place ≤ placement.place := by
  induction headers generalizing place with
  | nil => cases member
  | cons header later ih =>
    cases member with
    | head => exact Nat.le_refl place
    | tail _ member =>
      calc place
          ≤ place + header.size := Nat.le_add_right ..
        _ ≤ Board.pageAlign (place + header.size) := le_pageAlign _
        _ ≤ placement.place := ih member

/-- Each segment ends before those after it start. -/
theorem pairwise_pack (place : Nat) (headers : List Elf.ProgramHeader) :
    (pack place headers).Pairwise fun first second => first.stop ≤ second.place := by
  induction headers generalizing place with
  | nil => exact .nil
  | cons header later ih =>
    refine .cons (fun second member => ?_) (ih _)
    exact Nat.le_trans (le_pageAlign _) (le_place_of_mem member)

theorem contains_entry {placement : Placement} (small : placement.header.size < addressSpaceSize)
    (address : UInt32) : placement.entry.contains address = placement.header.spans address := by
  rw [Bool.eq_iff_iff, MappingEntry.contains_iff]
  have size : (UInt32.ofNat placement.header.size).toNat = placement.header.size :=
    UInt32.toNat_ofNat_of_lt' small
  have start : (UInt32.ofNat placement.header.virtualAddress).toNat =
      placement.header.virtualStart :=
    UInt32.toNat_ofNat'
  simp only [entry, Board.segmentEntry, size, start, Elf.ProgramHeader.spans_iff]

/-- The attributes of the entry are the segment's three flags. -/
theorem allows_entry (placement : Placement) (kind : AccessKind) :
    placement.entry.allows kind = placement.header.permits kind := by
  have low : kind.bit < 3 := by
    cases kind <;> decide
  have attributes : placement.entry.attributes.toNat = placement.header.flags % 2 ^ 32 % 2 ^ 3 := by
    rw [entry, Board.segmentEntry, UInt32.toNat_and, UInt32.toNat_ofNat']
    exact Nat.and_two_pow_sub_one_eq_mod _ 3
  rw [MappingEntry.allows_eq_testBit, attributes, Nat.testBit_mod_two_pow, Nat.testBit_mod_two_pow,
    decide_eq_true low, decide_eq_true (by omega : kind.bit < 32), Bool.true_and, Bool.true_and]
  rfl

theorem translate_entry {placement : Placement} {address : UInt32}
    (covers : placement.header.spans address = true) :
    placement.entry.translate address = placement.physical address := by
  rw [Elf.ProgramHeader.spans_iff] at covers
  have distance : address - UInt32.ofNat placement.header.virtualAddress =
      UInt32.ofNat (address.toNat - placement.header.virtualStart) := by
    have bound := address.toNat_lt
    have size : addressSpaceSize = 0x100000000 := rfl
    rw [← UInt32.toNat_inj, UInt32.toNat_sub, UInt32.toNat_ofNat', UInt32.toNat_ofNat']
    simp only [Elf.ProgramHeader.virtualStart, size] at *
    omega
  simp only [entry, Board.segmentEntry, MappingEntry.translate, physical]
  rw [distance, UInt32.ofNat_add]

end Placement

end RiscBoard
