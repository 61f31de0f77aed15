import RiscBoard.Elf.Parsing
import RiscBoard.Proofs.Elf.Placement
import RiscBoard.Proofs.Memory.Words

/-!
What the rules of the format say of the numbers in a file: they are as wide as their fields, so that a
32-bit file has no place for larger ones (`Reader.narrow_standard`).
-/

namespace RiscBoard.Elf

variable {encoding : Encoding} {file : ByteArray}

theorem Encoding.number_lt (encoding : Encoding) (bytes : ByteArray) (offset width : Nat) :
    encoding.number bytes offset width < 2 ^ (8 * width) := by
  unfold number
  split
  · exact Bytes.littleEndian_lt _ offset width
  · induction width with
    | zero => exact Nat.one_pos
    | succ width ih =>
      have low := (Bytes.byteAt bytes (offset + width)).toNat_lt
      rw [List.range_succ, List.foldl_append, Nat.mul_succ, Nat.pow_add]
      simp only [List.foldl_cons, List.foldl_nil]
      omega

theorem ProgramHeader.read_lt (narrow : encoding.fileClass = .bits32) (offset : Nat) :
    (read encoding file offset).virtualAddress < addressSpaceSize ∧
      (read encoding file offset).fileSize < addressSpaceSize ∧
      (read encoding file offset).memorySize < addressSpaceSize := by
  have width : encoding.addressSize = 4 := by rw [Encoding.addressSize, narrow]
  have address (place : Nat) : encoding.address file place < addressSpaceSize := by
    rw [Encoding.address, width]
    exact encoding.number_lt file place 4
  rw [read, narrow]
  exact ⟨address _, address _, address _⟩

theorem Encoding.fileClass_of_ofFile? (named : Encoding.ofFile? file = some encoding) :
    fileClass? file = some encoding.fileClass := by
  unfold ofFile? at named
  split at named
  · cases named
  · split at named
    · cases named
    · simp only [Option.bind_eq_bind, Option.bind_eq_some_iff, Option.some.injEq] at named
      obtain ⟨fileClass, isClass, order, -, rfl⟩ := named
      exact isClass

theorem ProgramHeader.exists_read_of_mem {start count : Nat} {headers : List ProgramHeader}
    {header : ProgramHeader} (found : readAll? encoding file start count = some headers)
    (member : header ∈ headers) : ∃ offset, header = read encoding file offset := by
  simp only [readAll?] at found
  split at found
  · cases found
  · rw [← Option.some.inj found, List.mem_map] at member
    obtain ⟨index, -, rfl⟩ := member
    exact ⟨_, rfl⟩

/-- Every header of an image is read from the file in the encoding that the file names. -/
theorem exists_read_of_parse? {image : Image} {header : ProgramHeader}
    (parsed : parse? file = some image) (member : header ∈ image.headers) :
    ∃ encoding offset, fileClass? file = some encoding.fileClass ∧
      header = ProgramHeader.read encoding file offset := by
  simp only [parse?, Option.bind_eq_bind, Option.bind_eq_some_iff] at parsed
  obtain ⟨encoding, named, fileHeader, -, programs, found, sections, -, isImage⟩ := parsed
  split at isImage
  · cases isImage
    obtain ⟨offset, isRead⟩ := ProgramHeader.exists_read_of_mem found member
    exact ⟨encoding, offset, Encoding.fileClass_of_ofFile? named, isRead⟩
  · cases isImage

namespace Reader

theorem locates_standard (file : ByteArray) : standard.Locates file := by
  intro header fits
  rfl

theorem narrow_standard (file : ByteArray) : standard.Narrow file := by
  intro bits32 image parsed header member
  obtain ⟨encoding, offset, isClass, rfl⟩ := exists_read_of_parse? parsed member
  have narrow : encoding.fileClass = .bits32 := Option.some.inj (isClass.symm.trans bits32)
  exact ProgramHeader.read_lt narrow offset

end Reader

end RiscBoard.Elf
