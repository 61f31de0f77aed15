import RiscBoard.Board.Basic
import RiscBoard.Elf.Image
import RiscBoard.ProgramError

/-!
Loading an executable file. Segments are packed into main memory, each on a page of its own, and
table 0 maps every one of them at its virtual address with its permissions. One more entry maps the
port window onto itself. What was done before a failure stays done.
-/

namespace RiscBoard

structure LoadOutcome where
  board : Board
  error : Option ProgramError

namespace Board

def pageSize : Nat := 0x1000

def pageAlign (address : Nat) : Nat := (address + pageSize - 1) / pageSize * pageSize

def insertMapping (board : Board) (entry : MappingEntry) : Except MapError Board :=
  let level := PrivilegeLevel.level0
  ((board.core.mmu.table level.index).insert entry).map fun (_, table) =>
    { board with core := { board.core with mmu := board.core.mmu.setTable level.index table } }

def segmentEntry (header : Elf.ProgramHeader) (place : Nat) : MappingEntry where
  physicalBase := UInt32.ofNat place
  virtualBase := UInt32.ofNat header.virtualAddress
  size := UInt32.ofNat header.size
  attributes := UInt32.ofNat header.flags &&& 7

def copySegment (board : Board) (header : Elf.ProgramHeader) (contents : ByteArray)
    (place : Nat) : Traced Board := do
  let copied ← board.loadPhysical (UInt32.ofNat place) contents
  copied.clearPhysical (UInt32.ofNat (place + contents.size)) (header.size - contents.size)

/-- Places segments one after another, the first of them, which is number `index`, at `place`. -/
def placeSegments (reader : Elf.Reader) (file : ByteArray) (index place : Nat) (board : Board) :
    List Elf.ProgramHeader → Traced LoadOutcome
  | [] => pure ⟨board, none⟩
  | header :: later =>
    match reader.contents? header file with
    | none => pure ⟨board, some (.segmentOutOfFile index)⟩
    | some contents =>
      let stop := place + header.size
      if UInt64.size ≤ stop then pure ⟨board, some (.placeOverflow index header.size)⟩
      else if board.memoryRange.stop < stop then
        pure ⟨board, some (.segmentTooLarge index header.size)⟩
      else do
        let start := UInt64.ofNat header.virtualAddress
        Traced.log (.segmentPlaced index start (start + UInt64.ofNat header.size) place)
        let copied ← board.copySegment header contents place
        match copied.insertMapping (segmentEntry header place) with
        | .error _ => pure ⟨copied, some .mapFull⟩
        | .ok mapped => placeSegments reader file (index + 1) (pageAlign stop) mapped later

def mapWindow (board : Board) : Except MapError Board :=
  match board.core.bus.window with
  | none => .ok board
  | some window =>
    board.insertMapping ⟨window.start, window.start, UInt32.ofNat window.size, 6⟩

def enter (board : Board) (entry : Nat) : Traced Board := do
  let mmu := { board.core.mmu with control := board.core.mmu.control.setEnabled true }
  Traced.log (.imageLoaded (UInt64.ofNat entry))
  pure { board with core := { board.core with mmu := mmu }.setPc (UInt32.ofNat entry) }

def load (board : Board) (reader : Elf.Reader) (file : ByteArray) : Traced LoadOutcome :=
  match reader.parse? file with
  | none => pure ⟨board, some .notElf⟩
  | some image =>
    let segments := image.segments
    if ProgramError.segmentLimit < segments.length then
      pure ⟨board, some (.tooManySegments segments.length)⟩
    else do
      let placed ← placeSegments reader file 0 board.memoryRange.start.toNat board segments
      match placed.error with
      | some _ => pure placed
      | none =>
        match placed.board.mapWindow with
        | .error _ => pure ⟨placed.board, some .mapFull⟩
        | .ok mapped => do
          let entered ← mapped.enter image.entry
          pure ⟨entered, none⟩

end Board

end RiscBoard
