import Mathlib.Data.List.Basic
import RiscBoard.Elf.Listing
import RiscBoard.Proofs.Elf.Placement
import RiscBoard.Proofs.Instruction.Disassembly

/-!
What a listing shows. A listing that does not break off has the lines of each executable segment in
the order of the file, with the number of the segment among all of them; and its texts are those of
the instructions that a core executes.
-/

namespace RiscBoard

namespace Elf

namespace ProgramHeader

def wordAddress (header : ProgramHeader) (position : Nat) : UInt32 :=
  UInt32.ofNat header.virtualAddress + UInt32.ofNat (4 * position)

def word (header : ProgramHeader) (file : ByteArray) (position : Nat) : UInt32 :=
  Bytes.read file (header.offset + 4 * position) .long

def listing (header : ProgramHeader) (file : ByteArray) (index : Nat) : List String :=
  if header.isExecutable then
    ("segment " ++ toString index ++ ":") ::
      (List.range (header.fileSize / 4)).map fun position =>
        wordLine (header.wordAddress position) (header.word file position)
  else []

theorem value_byte_eq (header : ProgramHeader) (file : ByteArray) {distance : Nat}
    {size : AccessSize} (inside : distance + size.bytes ≤ header.fileSize) :
    Bytes.value (header.byte file) distance size = Bytes.read file (header.offset + distance) size := by
  apply Bytes.value_congr
  intro further within
  rw [byte, if_pos (by omega), Nat.add_assoc]

theorem segmentLines_eq {reader : Reader} {header : ProgramHeader} {file contents : ByteArray}
    (locates : reader.Locates file) (found : reader.contents? header file = some contents)
    (listed : header.isExecutable = true) (index : Nat) :
    segmentLines index header contents = header.listing file index := by
  obtain ⟨size, isContents⟩ := Reader.contents_of_contents? locates found
  rw [segmentLines, listing, if_pos listed, size]
  refine congrArg (List.cons _) (List.map_congr_left fun position member => ?_)
  have inside := List.mem_range.1 member
  have word : Bytes.read contents (4 * position) .long = header.word file position := by
    rw [Bytes.read, isContents]
    exact header.value_byte_eq file (by show 4 * position + 4 ≤ header.fileSize; omega)
  rw [word, wordAddress]

end ProgramHeader

/-- Segments are numbered as in the file, those that are not listed as well. -/
theorem Listing.lines_ofSegments {reader : Reader} {file : ByteArray} {index : Nat}
    {segments : List ProgramHeader} (locates : reader.Locates file)
    (complete : (ofSegments reader file index segments).error = none) :
    (ofSegments reader file index segments).lines =
      (segments.zipIdx index).flatMap fun (header, number) => header.listing file number := by
  induction segments generalizing index with
  | nil => rfl
  | cons header later ih =>
    rw [ofSegments] at complete ⊢
    rw [List.zipIdx_cons, List.flatMap_cons]
    dsimp only
    cases listed : header.isExecutable with
    | false =>
      rw [listed, if_neg Bool.false_ne_true] at complete
      rw [if_neg Bool.false_ne_true, ih complete, ProgramHeader.listing, listed,
        if_neg Bool.false_ne_true, List.nil_append]
    | true =>
      rw [listed, if_pos rfl] at complete
      rw [if_pos rfl]
      cases found : reader.contents? header file with
      | none =>
        rw [found] at complete
        cases complete
      | some contents =>
        rw [found] at complete
        dsimp only at complete ⊢
        rw [ProgramHeader.segmentLines_eq locates found listed, ih complete]

end Elf

namespace Instruction

/-- No mnemonic starts with a dot. -/
theorem word_not_prefix_text (instruction : Instruction) :
    ¬ ".word ".toList <+: instruction.text.toList := by
  have undotted : ∀ form ∈ forms, (form.mnemonic.toList.head?.all (· = '.')) = false := by
    decide +kernel
  have first := undotted _ instruction.form_mem
  rw [mnemonic_form] at first
  rw [toList_text]
  cases letters : instruction.mnemonic.toList with
  | nil =>
    rw [letters] at first
    cases first
  | cons letter later =>
    rw [letters] at first
    rw [List.cons_append]
    rintro ⟨rest, same⟩
    have dot : '.' = letter := (List.cons.inj same).1
    rw [← dot] at first
    cases first

end Instruction

namespace Core

def Performs (core : Core) (word : UInt32) (instruction : Instruction) : Prop :=
  core.executeWord word = do
    Traced.log (.executing (core.pc - 12) instruction)
    core.execute instruction

def Rejects (core : Core) (word : UInt32) : Prop :=
  ∃ error, core.executeWord word =
    ⟨core.faulted .illegalInstruction, [.log (.undecodable word error)]⟩

/-- The text of a word in a listing tells what the core does with it. -/
structure DoesAsListed (core : Core) (word : UInt32) : Prop where
  known : core.Rejects word ∨ ∃ instruction, core.Performs word instruction
  performed : ∀ instruction, core.Performs word instruction → Elf.wordText word = instruction.text
  rejected : ".word ".toList <+: (Elf.wordText word).toList ↔ core.Rejects word

theorem performs_of_decode (core : Core) {word : UInt32} {instruction : Instruction}
    (decoded : Instruction.decode word = .ok instruction) : core.Performs word instruction := by
  rw [Performs, executeWord, decoded]

theorem rejects_of_undecodable (core : Core) {word : UInt32} {error : DecodeError}
    (undecodable : Instruction.decode word = .error error) : core.Rejects word := by
  refine ⟨error, ?_⟩
  rw [executeWord, undecodable]
  rfl

/-- A word that stands for an instruction is logged as one when it is executed. -/
theorem not_rejects_of_decode (core : Core) {word : UInt32} {instruction : Instruction}
    (decoded : Instruction.decode word = .ok instruction) : ¬ core.Rejects word := by
  rintro ⟨error, rejected⟩
  have first := congrArg (·.events.head?) ((core.performs_of_decode decoded).symm.trans rejected)
  cases first

theorem decode_of_performs {core : Core} {word : UInt32} {instruction : Instruction}
    (performs : core.Performs word instruction) : Instruction.decode word = .ok instruction := by
  cases decoded : Instruction.decode word with
  | error error =>
    obtain ⟨_, rejected⟩ := core.rejects_of_undecodable decoded
    have first := congrArg (·.events.head?) (performs.symm.trans rejected)
    cases first
  | ok other =>
    have first := congrArg (·.events.head?)
      (performs.symm.trans (core.performs_of_decode decoded))
    cases first
    rfl

/-- The text of a word is that of the instruction that a core executes for it, or a number if it
executes none. -/
theorem doesAsListed (core : Core) (word : UInt32) : core.DoesAsListed word := by
  cases decoded : Instruction.decode word with
  | error error =>
    have rejects := core.rejects_of_undecodable decoded
    have text : Elf.wordText word = ".word " ++ Text.hexWord word.toNat := by
      rw [Elf.wordText, decoded]
    refine ⟨.inl rejects, fun instruction performs => ?_, fun _ => rejects, fun _ => ?_⟩
    · rw [decode_of_performs performs] at decoded
      cases decoded
    · rw [text, String.toList_append]
      exact List.prefix_append ..
  | ok instruction =>
    have performs := core.performs_of_decode decoded
    have text : Elf.wordText word = instruction.text := by
      rw [Elf.wordText, decoded]
    refine ⟨.inr ⟨instruction, performs⟩, fun other performsOther => ?_, fun dotted => ?_,
      fun rejects => absurd rejects (core.not_rejects_of_decode decoded)⟩
    · rw [text, Except.ok.inj (decoded.symm.trans (decode_of_performs performsOther))]
    · rw [text] at dotted
      exact absurd dotted instruction.word_not_prefix_text

end Core

end RiscBoard
