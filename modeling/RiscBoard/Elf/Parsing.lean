import RiscBoard.Elf.Dynamic

/-!
Reading files by the rules of the format. Both classes and both byte orders are read.
-/

namespace RiscBoard.Elf

structure FileHeader where
  machine : Nat
  entry : Nat
  programHeaders : Nat
  programHeaderCount : Nat
  sectionHeaders : Nat
  sectionHeaderCount : Nat
  /-- The index of the section with the names of the sections. -/
  sectionNames : Nat
  deriving DecidableEq

def Encoding.fileHeaderSize (encoding : Encoding) : Nat :=
  match encoding.fileClass with
  | .bits32 => 52
  | .bits64 => 64

def FileHeader.read? (encoding : Encoding) (bytes : ByteArray) : Option FileHeader :=
  let short (offset : Nat) := encoding.number bytes offset 2
  let address := encoding.address bytes
  if bytes.size < encoding.fileHeaderSize then none
  else
    match encoding.fileClass with
    | .bits32 => some ⟨short 18, address 24, address 28, short 44, address 32, short 48, short 50⟩
    | .bits64 => some ⟨short 18, address 24, address 32, short 56, address 40, short 60, short 62⟩

/-- Reads a file. It is refused when the identification does not fit, when it is too short for its
headers, or when a table that they describe cannot be read. -/
def parse? (bytes : ByteArray) : Option Image := do
  let encoding ← Encoding.ofFile? bytes
  let header ← FileHeader.read? encoding bytes
  let programs ←
    ProgramHeader.readAll? encoding bytes header.programHeaders header.programHeaderCount
  let sections ←
    SectionHeader.readAll? encoding bytes header.sectionHeaders header.sectionHeaderCount
  if hasTables sections encoding bytes header.sectionNames &&
      hasDynamic programs encoding bytes header.machine then
    some ⟨header.entry, programs⟩
  else none

def Reader.standard : Reader := ⟨Elf.parse?, ProgramHeader.extent⟩

end RiscBoard.Elf
