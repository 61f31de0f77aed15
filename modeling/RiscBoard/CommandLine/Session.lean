import RiscBoard.Board.Run
import RiscBoard.CommandLine.Arguments
import RiscBoard.Console
import RiscBoard.Elf.Listing
import RiscBoard.Elf.Load
import RiscBoard.Elf.Parsing

/-!
What a command line leads to: a listing, or a board that is ready to run with the console as its
host. Files are looked up by name; a name without contents cannot be read. Programs are read by the
rules of their format.
-/

namespace RiscBoard

def Elf.Listing.ofFile (file : ByteArray) : Elf.Listing := Elf.Reader.standard.listing file

def Board.loadElf (board : Board) (file : ByteArray) : Traced LoadOutcome :=
  board.load Elf.Reader.standard file

namespace CommandLine

abbrev Files := String → Option ByteArray

def readFile (files : Files) (path : String) : Except ProgramError ByteArray :=
  (files path).elim (.error (.unreadable path)) .ok

def readOptional (files : Files) : Option String → Except ProgramError (Option ByteArray)
  | none => .ok none
  | some path => (readFile files path).map some

inductive Plan where
  | print (listing : Elf.Listing)
  | run (board : Board)

def prepareCore (board : Board) (writer : Console.Writer) (flush : Bool) : Board :=
  let core := { board.core with host := some (Console.host writer) }
  let control := if flush then core.control.setFlushOnTransfer true else core.control
  { board with core := { core with control := control } }

def createBoard (arguments : Arguments) (files : Files) : Except ProgramError (Traced Board) := do
  let bios ← readOptional files arguments.bios
  let config : BoardConfig :=
    { BoardConfig.standard with
      memoryBase := arguments.memoryBase
      memorySize := arguments.memorySize
      bios := bios }
  (Board.create config).mapError .board

def loadProgram (board : Board) : Option ByteArray → Traced LoadOutcome
  | none => pure ⟨board, none⟩
  | some file => board.loadElf file

def plan (arguments : Arguments) (files : Files) (writer : Console.Writer) :
    Traced (Except ProgramError Plan) :=
  match readOptional files arguments.elf with
  | .error error => pure (.error error)
  | .ok file =>
    if arguments.disassemble then
      pure (.ok (.print (file.elim ⟨[], none⟩ Elf.Listing.ofFile)))
    else if file.isNone && arguments.bios.isNone then
      pure (.error .nothingToRun)
    else
      match createBoard arguments files with
      | .error error => pure (.error error)
      | .ok created => do
        let board ← created
        let loaded ← loadProgram board file
        match loaded.error with
        | some error => pure (.error error)
        | none =>
          pure (.ok (.run (prepareCore loaded.board writer arguments.flushOnTransfer)))

end CommandLine

end RiscBoard
