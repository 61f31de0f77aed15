import RiscBoard.Elf.Encoding

/-!
The table of program headers, and the places in a file of what the headers put into memory.
-/

namespace RiscBoard.Elf

def Encoding.programHeaderSize (encoding : Encoding) : Nat :=
  match encoding.fileClass with
  | .bits32 => 32
  | .bits64 => 56

namespace ProgramHeader

def read (encoding : Encoding) (bytes : ByteArray) (offset : Nat) : ProgramHeader :=
  let short (place : Nat) := encoding.number bytes (offset + place) 4
  let address (place : Nat) := encoding.address bytes (offset + place)
  match encoding.fileClass with
  | .bits32 =>
    { kind := short 0, offset := address 4, virtualAddress := address 8, fileSize := address 16,
      memorySize := address 20, flags := short 24 }
  | .bits64 =>
    { kind := short 0, flags := short 4, offset := address 8, virtualAddress := address 16,
      fileSize := address 32, memorySize := address 40 }

def readAll? (encoding : Encoding) (bytes : ByteArray) (start count : Nat) :
    Option (List ProgramHeader) :=
  let size := encoding.programHeaderSize
  if count ≠ 0 ∧ !Extent.fits ⟨start, count * size⟩ bytes then none
  else some ((List.range count).map fun index => read encoding bytes (start + index * size))

def dynamic : Nat := 2

def extent (header : ProgramHeader) : Extent := ⟨header.offset, header.fileSize⟩

def covers (header : ProgramHeader) (address : Nat) : Bool :=
  header.kind == loadable && header.virtualAddress ≤ address &&
    address - header.virtualAddress < header.memorySize

end ProgramHeader

/-- Where in the file the contents of an address are, by the first segment that covers it. The place
has to be a 64-bit number. -/
def fileOffset? (headers : List ProgramHeader) (address : Nat) : Option Nat := do
  let header ← headers.find? fun header => header.covers address
  let place := header.offset + (address - header.virtualAddress)
  if place < UInt64.size then some place else none

end RiscBoard.Elf
