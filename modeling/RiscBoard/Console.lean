import RiscBoard.Host
import RiscBoard.Text.Number

/-!
The console. One system call prints a character, one debug instruction prints the first argument
register and stops the core; every other request is left to the program. A writer that fails is
reported and changes nothing else.
-/

namespace RiscBoard.Console

def putCharacter : UInt32 := 0xabcd00

def exit : UInt32 := 0xadc0de

def exitLine (registers : RegisterFile) : String :=
  "\na0=" ++ Text.paddedDigits 16 8 (registers.get .argument).toNat ++ "\n"

/-- The bytes that a call asks to have written, if it is one that the console services. -/
def requested? (request : HookCall) : Option (List UInt8) :=
  match request.kind with
  | .syscall =>
    if request.immediate = putCharacter then some [(request.registers.get .scratch).toUInt8]
    else none
  | .debug =>
    if request.immediate = exit then some ((exitLine request.registers).toList.map Char.toUInt8)
    else none

def action (request : HookCall) : HostAction :=
  match request.kind with
  | .syscall => if request.immediate = putCharacter then .resume else .raise
  | .debug => if request.immediate = exit then .halt else .raise

/-- Where the bytes go. Whether the newest call's bytes can be written, and if not why, may depend
on every call so far. -/
structure Writer where
  failure? : List HookCall → Option String

def Writer.open : Writer := ⟨fun _ => none⟩

def Writer.closed : Writer := ⟨fun _ => some "closed"⟩

def report (writer : Writer) (calls : List HookCall) : List Event :=
  match calls with
  | [] => []
  | request :: _ =>
    match requested? request with
    | none => []
    | some bytes =>
      match writer.failure? calls with
      | none => [.output bytes]
      | some reason => [.log (.consoleFailed reason)]

def host (writer : Writer) : Host where
  answer
    | [] => .raise
    | request :: _ => action request
  report := report writer
  calls := []

end RiscBoard.Console
