import RiscBoard.Elf.Encoding

/-!
Section headers. A loader uses no section, but a file is refused when the tables that its section
headers describe cannot be read: the names of the sections, the symbols with their names, the
relocations, and the versions of symbols.
-/

namespace RiscBoard.Elf

structure SectionHeader where
  kind : Nat
  address : Nat
  offset : Nat
  size : Nat
  /-- The index of a section that this one refers to. -/
  link : Nat
  /-- The size of a record, in a section of equal records. -/
  recordSize : Nat
  deriving DecidableEq

def Encoding.sectionHeaderSize (encoding : Encoding) : Nat :=
  match encoding.fileClass with
  | .bits32 => 40
  | .bits64 => 64

def Encoding.symbolSize (encoding : Encoding) : Nat :=
  match encoding.fileClass with
  | .bits32 => 16
  | .bits64 => 24

namespace SectionHeader

def read (encoding : Encoding) (bytes : ByteArray) (offset : Nat) : SectionHeader :=
  let short (place : Nat) := encoding.number bytes (offset + place) 4
  let address (place : Nat) := encoding.address bytes (offset + place)
  match encoding.fileClass with
  | .bits32 =>
    { kind := short 4, address := address 12, offset := address 16, size := address 20,
      link := short 24, recordSize := address 36 }
  | .bits64 =>
    { kind := short 4, address := address 16, offset := address 24, size := address 32,
      link := short 40, recordSize := address 56 }

/-- The section headers from `start` on, of which there are none if `start` is 0. A `count` of 0 means
that the first header holds their number as its size. -/
def readAll? (encoding : Encoding) (bytes : ByteArray) (start count : Nat) :
    Option (List SectionHeader) :=
  let size := encoding.sectionHeaderSize
  let stated := if count = 0 then (read encoding bytes start).size else count
  if start = 0 then some []
  else if Extent.fits ⟨start, max 1 stated * size⟩ bytes then
    some ((List.range (max 1 stated)).map fun index => read encoding bytes (start + index * size))
  else none

def symbols : Nat := 2

def relocations : List Nat := [4, 9]

def absent : Nat := 8

def versions : List Nat := [0x6ffffffd, 0x6ffffffe, 0x6fffffff]

def extent (header : SectionHeader) : Extent := ⟨header.offset, header.size⟩

/-- Whether the contents lie in the file, and in memory below the end of a 64-bit address space. -/
def isPlaced (header : SectionHeader) (bytes : ByteArray) : Bool :=
  header.kind == absent || header.size == 0 ||
    header.extent.fits bytes && header.address + header.size < UInt64.size

def symbolExtent (header : SectionHeader) (encoding : Encoding) : Extent :=
  ⟨header.offset, header.size / header.recordSize * encoding.symbolSize⟩

end SectionHeader

/-- An index that stands for the link of the first section. -/
def extendedIndex : Nat := 0xffff

/-- Whether the section with an index holds names. No section is as good as an empty one. -/
def hasNames (headers : List SectionHeader) (bytes : ByteArray) (index : Nat) : Bool :=
  let resolved :=
    if index = extendedIndex then (headers.head?.map SectionHeader.link).getD 0 else index
  headers[resolved]?.all fun header => header.isPlaced bytes && header.extent.isText bytes

def hasSymbols (headers : List SectionHeader) (encoding : Encoding) (bytes : ByteArray) : Bool :=
  let table := headers.reverse.find? fun header => header.kind == SectionHeader.symbols
  table.all fun header =>
    (header.symbolExtent encoding).fits bytes && hasNames headers bytes header.link

def hasRelocations (headers : List SectionHeader) (bytes : ByteArray) : Bool :=
  headers.all fun header =>
    !SectionHeader.relocations.contains header.kind || header.isPlaced bytes

def hasVersions (headers : List SectionHeader) (bytes : ByteArray) : Bool :=
  SectionHeader.versions.all fun kind =>
    (headers.find? fun header => header.kind == kind).all fun header => header.extent.fits bytes

def hasTables (headers : List SectionHeader) (encoding : Encoding) (bytes : ByteArray)
    (names : Nat) : Bool :=
  hasNames headers bytes names && hasSymbols headers encoding bytes &&
    hasRelocations headers bytes && hasVersions headers bytes

end RiscBoard.Elf
