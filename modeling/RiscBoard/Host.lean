import RiscBoard.Event

/-!
The host's part in `syscall` and `debug` instructions. The host is asked before the exception would
be taken; it sees the registers and can service the request. What it decides depends on the calls
alone, and so does what it shows to the outside.
-/

namespace RiscBoard

inductive HostAction where
  /-- The exception is taken. -/
  | raise
  | resume
  /-- The instruction is done and the core stops. -/
  | halt
  deriving DecidableEq

/-- A host given by its behaviour on the calls made so far, the newest one first. -/
structure Host where
  answer : List HookCall → HostAction
  report : List HookCall → List Event
  calls : List HookCall

namespace Host

def call (host : Host) (request : HookCall) : Traced (HostAction × Host) :=
  let calls := request :: host.calls
  ⟨(host.answer calls, { host with calls := calls }), .hookCall request :: host.report calls⟩

def silent : Host := ⟨fun _ => .raise, fun _ => [], []⟩

def ruled (rules : List (UInt32 × HostAction)) (immediate : UInt32) : HostAction :=
  (rules.lookup immediate).getD .raise

def scripted (syscalls debugs : List (UInt32 × HostAction)) : Host where
  answer
    | [] => .raise
    | request :: _ =>
      match request.kind with
      | .syscall => ruled syscalls request.immediate
      | .debug => ruled debugs request.immediate
  report _ := []
  calls := []

end Host

end RiscBoard
