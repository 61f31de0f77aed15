/-!
Executable files in the ELF format, as far as a loader needs them: the entry point and the program
headers, which say what part of a file goes where in memory. How these are found in the bytes of a file
is up to a reader.
-/

namespace RiscBoard.Elf

structure Extent where
  offset : Nat
  size : Nat
  deriving DecidableEq

namespace Extent

/-- Whether the file is long enough. A run of no bytes may start at the end of the file. -/
def fits (extent : Extent) (bytes : ByteArray) : Bool :=
  extent.offset + extent.size ≤ bytes.size

def slice (extent : Extent) (bytes : ByteArray) : ByteArray :=
  bytes.extract extent.offset (extent.offset + extent.size)

end Extent

structure ProgramHeader where
  kind : Nat
  flags : Nat
  offset : Nat
  virtualAddress : Nat
  fileSize : Nat
  memorySize : Nat
  deriving DecidableEq

namespace ProgramHeader

def loadable : Nat := 1

def size (header : ProgramHeader) : Nat := max header.memorySize header.fileSize

def isExecutable (header : ProgramHeader) : Bool := header.flags.testBit 0

end ProgramHeader

structure Image where
  entry : Nat
  headers : List ProgramHeader
  deriving DecidableEq

def Image.segments (image : Image) : List ProgramHeader :=
  image.headers.filter fun header => header.kind == ProgramHeader.loadable

/-- What reads files: the image of a file, unless the file is refused, and where in a file the contents
of a segment are. -/
structure Reader where
  parse? : ByteArray → Option Image
  extent : ProgramHeader → Extent

/-- The contents of a segment, unless the file is too short for them. -/
def Reader.contents? (reader : Reader) (header : ProgramHeader) (file : ByteArray) :
    Option ByteArray :=
  if (reader.extent header).fits file then some ((reader.extent header).slice file) else none

end RiscBoard.Elf
