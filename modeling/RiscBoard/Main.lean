import RiscBoard.CommandLine.Session

/-!
The program: reads the files that the command line names, prints a listing or runs a board, and ends
with a status. What is done is decided by the session's plan; here it is only carried out.
-/

namespace RiscBoard

def readIfPossible (path : String) : IO (Option ByteArray) := do
  try
    let contents ← IO.FS.readBinFile path
    pure (some contents)
  catch _ =>
    pure none

def showEvents (threshold : LogLevel) (events : List Event) : IO Unit := do
  for event in events do
    match event with
    | .output bytes =>
      let stdout ← IO.getStdout
      stdout.write ⟨bytes.toArray⟩
      stdout.flush
    | .log entry =>
      if entry.level.keptBy threshold then
        IO.eprintln (entry.level.name ++ " " ++ entry.message)
    | _ => pure ()

def waitUntil (start : Nat) (due : UInt64) : IO Unit := do
  let now ← IO.monoMsNow
  let wait := start + due.toNat - now
  if 0 < wait then
    IO.sleep (UInt32.ofNat wait)

def carryOut (arguments : Arguments) (threshold : LogLevel) :
    CommandLine.Plan → IO (Option ProgramError)
  | .print listing => do
    IO.print listing.text
    pure listing.error
  | .run board => do
    let start ← IO.monoMsNow
    let observer : Observer IO :=
      { observe := showEvents threshold, waitUntil := waitUntil start }
    let stopped ← board.run observer arguments.cpuSpeed arguments.cycles
    showEvents threshold [.log (.runStopped stopped.core.cycles stopped.core.pc)]
    pure none

def session (arguments : Arguments) : IO UInt32 := do
  let threshold := if arguments.trace then LogLevel.trace else LogLevel.info
  let elf ← arguments.elf.bindM readIfPossible
  let bios ← arguments.bios.bindM readIfPossible
  let files : CommandLine.Files := fun path => if arguments.elf = some path then elf else bios
  let planned := CommandLine.plan arguments files .open
  showEvents threshold planned.events
  let error ← match planned.value with
    | .error error => pure (some error)
    | .ok plan => carryOut arguments threshold plan
  match error with
  | none => pure 0
  | some error => do
    IO.eprintln ("Error: " ++ error.message)
    pure 1

end RiscBoard

def main (words : List String) : IO UInt32 :=
  match RiscBoard.CommandLine.parse words with
  | .error refusal => do
    IO.eprintln refusal.message
    pure (UInt32.ofNat refusal.exitStatus)
  | .ok arguments => RiscBoard.session arguments
