import RiscBoard.Elf.Section
import RiscBoard.Elf.Segment

/-!
The dynamic segment, which tells a dynamic linker where its tables are. A loader of whole programs
uses none of them, but a file is refused when one of them cannot be read: the names, the relocations,
and the symbols. How many symbols there are is nowhere stated; it follows from the hash table over
their names and from the relocations that refer to them.
-/

namespace RiscBoard.Elf

inductive DynamicTag where
  | null
  | linkageRelocationsSize
  | hash
  | names
  | symbols
  | addendRelocations
  | addendRelocationsSize
  | namesSize
  | relocations
  | relocationsSize
  /-- Has the code of `addendRelocations` as its value if relocations for linkage have addends. -/
  | linkageRelocationsKind
  | linkageRelocations
  /-- A hash table with a filter in front of it. -/
  | filteredHash
  deriving DecidableEq

def DynamicTag.code : DynamicTag → Nat
  | null => 0
  | linkageRelocationsSize => 2
  | hash => 4
  | names => 5
  | symbols => 6
  | addendRelocations => 7
  | addendRelocationsSize => 8
  | namesSize => 10
  | relocations => 17
  | relocationsSize => 18
  | linkageRelocationsKind => 20
  | linkageRelocations => 23
  | filteredHash => 0x6ffffef5

structure DynamicEntry where
  tag : Nat
  value : Nat
  deriving DecidableEq

def dynamicEntries (encoding : Encoding) (bytes : ByteArray) (extent : Extent) :
    List DynamicEntry :=
  let width := encoding.addressSize
  let entry (index : Nat) : DynamicEntry :=
    let offset := extent.offset + index * (2 * width)
    ⟨encoding.address bytes offset, encoding.address bytes (offset + width)⟩
  ((List.range (extent.size / (2 * width))).map entry).takeWhile fun entry =>
    entry.tag != DynamicTag.null.code

structure RelocationTable where
  extent : Extent
  /-- Whether each relocation carries an addend. -/
  hasAddend : Bool
  deriving DecidableEq

namespace RelocationTable

def isReadable (table : RelocationTable) (bytes : ByteArray) : Bool :=
  table.extent.size == 0 || table.extent.fits bytes

def symbols (table : RelocationTable) (encoding : Encoding) (bytes : ByteArray) : List Nat :=
  let width := encoding.addressSize
  let recordSize := (if table.hasAddend then 3 else 2) * width
  let shift := match encoding.fileClass with
    | .bits32 => 8
    | .bits64 => 32
  (List.range (table.extent.size / recordSize)).map fun index =>
    encoding.address bytes (table.extent.offset + index * recordSize + width) >>> shift

end RelocationTable

/-- The machines whose 64-bit files have hash tables of 64-bit numbers. -/
def wideHashMachines : List Nat := [22, 41]

def hashCount? (encoding : Encoding) (bytes : ByteArray) (machine offset : Nat) : Option Nat :=
  let isWide := wideHashMachines.contains machine && encoding.fileClass == .bits64
  encoding.number? bytes (offset + 4) (if isWide then 8 else 4)

/-- How long the chain at `offset` is: its last word is the first odd one. -/
def chainLength? (encoding : Encoding) (bytes : ByteArray) (offset : Nat) : Option Nat :=
  let words := (List.range ((bytes.size - offset) / 4)).map fun index =>
    encoding.number bytes (offset + 4 * index) 4
  (words.findIdx? fun word => word.testBit 0).map (· + 1)

/-- The number of symbols in a filtered hash table: the end of the chain that starts last. The table
starts with the number of buckets, the number of its first symbol and the length of the filter, none
of which may be 0. -/
def filteredHashCount? (encoding : Encoding) (bytes : ByteArray) (offset : Nat) : Option Nat := do
  let bucketCount ← encoding.number? bytes offset 4
  let firstSymbol ← encoding.number? bytes (offset + 4) 4
  let filterLength ← encoding.number? bytes (offset + 8) 4
  let buckets : Extent :=
    ⟨offset + 16 + filterLength * encoding.addressSize, 4 * bucketCount⟩
  if bucketCount = 0 ∨ firstSymbol = 0 ∨ filterLength = 0 ∨ !buckets.fits bytes then none
  else
    let starts := (List.range bucketCount).map fun index =>
      encoding.number bytes (buckets.offset + 4 * index) 4
    let lastStart := starts.foldl max 0
    if lastStart < firstSymbol then some 0
    else
      let chain := buckets.offset + buckets.size + 4 * (lastStart - firstSymbol)
      (chainLength? encoding bytes chain).map (lastStart + ·)

structure Dynamic where
  entries : List DynamicEntry
  headers : List ProgramHeader
  deriving DecidableEq

namespace Dynamic

def value? (dynamic : Dynamic) (tag : DynamicTag) : Option Nat :=
  (dynamic.entries.reverse.find? fun entry => entry.tag == tag.code).map DynamicEntry.value

def size (dynamic : Dynamic) (tag : DynamicTag) : Nat := (dynamic.value? tag).getD 0

def place? (dynamic : Dynamic) (tag : DynamicTag) : Option Nat :=
  (dynamic.value? tag).bind (fileOffset? dynamic.headers)

/-- The place of a table. One that is not in memory counts as being at the start of the file. -/
def place (dynamic : Dynamic) (tag : DynamicTag) : Nat := (dynamic.place? tag).getD 0

def names (dynamic : Dynamic) : Extent := ⟨dynamic.place .names, dynamic.size .namesSize⟩

def relocations (dynamic : Dynamic) : List RelocationTable :=
  let linkageAddend :=
    dynamic.value? .linkageRelocationsKind == some DynamicTag.addendRelocations.code
  [⟨⟨dynamic.place .addendRelocations, dynamic.size .addendRelocationsSize⟩, true⟩,
    ⟨⟨dynamic.place .relocations, dynamic.size .relocationsSize⟩, false⟩,
    ⟨⟨dynamic.place .linkageRelocations, dynamic.size .linkageRelocationsSize⟩, linkageAddend⟩]

def hashedCount? (dynamic : Dynamic) (encoding : Encoding) (bytes : ByteArray) (machine : Nat) :
    Option Nat :=
  match dynamic.place? .filteredHash, dynamic.place? .hash with
  | some offset, _ => filteredHashCount? encoding bytes offset
  | none, some offset => hashCount? encoding bytes machine offset
  | none, none => some 0

/-- Where the symbols are, for a number by the hash table: enough for every relocation. Symbol 0 is
none, so that a relocation may name it without a table. -/
def symbolExtent (dynamic : Dynamic) (encoding : Encoding) (bytes : ByteArray) (hashed : Nat) :
    Extent :=
  let highest := (dynamic.relocations.flatMap fun table => table.symbols encoding bytes).foldl max 0
  let count := if highest = 0 then hashed else max hashed (highest + 1)
  ⟨dynamic.place .symbols, count * encoding.symbolSize⟩

def isReadable (dynamic : Dynamic) (encoding : Encoding) (bytes : ByteArray) (machine : Nat) :
    Bool :=
  dynamic.names.isText bytes &&
    (dynamic.relocations.all fun table => table.isReadable bytes) &&
    (dynamic.hashedCount? encoding bytes machine).any fun hashed =>
      (dynamic.symbolExtent encoding bytes hashed).fits bytes

end Dynamic

def hasDynamic (headers : List ProgramHeader) (encoding : Encoding) (bytes : ByteArray)
    (machine : Nat) : Bool :=
  let segment := headers.find? fun header => header.kind == ProgramHeader.dynamic
  segment.all fun header =>
    (header.fileSize == 0 || header.extent.fits bytes) &&
      Dynamic.isReadable ⟨dynamicEntries encoding bytes header.extent, headers⟩ encoding bytes machine

end RiscBoard.Elf
