import RiscBoard.Elf.Image
import RiscBoard.Instruction.Decode
import RiscBoard.Instruction.Text
import RiscBoard.Memory.Bytes
import RiscBoard.ProgramError

/-!
Listings of the executable segments of a file: a heading for each segment and a line for each whole
word of its contents. Words are stored lowest byte first, whatever the byte order of the file.
-/

namespace RiscBoard.Elf

structure Listing where
  lines : List String
  error : Option ProgramError
  deriving DecidableEq

def wordText (word : UInt32) : String :=
  match Instruction.decode word with
  | .ok instruction => instruction.text
  | .error _ => ".word " ++ Text.hexWord word.toNat

def wordLine (address word : UInt32) : String :=
  Text.paddedDigits 16 8 address.toNat ++ ":  " ++ Text.paddedDigits 16 8 word.toNat ++ "  " ++
    wordText word

def segmentLines (index : Nat) (header : ProgramHeader) (contents : ByteArray) : List String :=
  ("segment " ++ toString index ++ ":") ::
    (List.range (contents.size / 4)).map fun position =>
      wordLine (UInt32.ofNat header.virtualAddress + UInt32.ofNat (4 * position))
        (Bytes.read contents (4 * position) .long)

namespace Listing

/-- The listing of segments, the first of which is number `index`. -/
def ofSegments (reader : Reader) (file : ByteArray) (index : Nat) : List ProgramHeader → Listing
  | [] => ⟨[], none⟩
  | header :: later =>
    if header.isExecutable then
      match reader.contents? header file with
      | none => ⟨[], some (.segmentOutOfFile index)⟩
      | some contents =>
        let rest := ofSegments reader file (index + 1) later
        ⟨segmentLines index header contents ++ rest.lines, rest.error⟩
    else
      ofSegments reader file (index + 1) later

def limited (listing : Listing) (capacity : Nat) : Listing :=
  if listing.lines.length ≤ capacity then listing
  else ⟨listing.lines.take capacity, some .unwritable⟩

def text (listing : Listing) : String :=
  String.join (listing.lines.map fun line => line ++ "\n")

end Listing

def Reader.listing (reader : Reader) (file : ByteArray) : Listing :=
  match reader.parse? file with
  | none => ⟨[], some .notElf⟩
  | some image => .ofSegments reader file 0 image.segments

end RiscBoard.Elf
