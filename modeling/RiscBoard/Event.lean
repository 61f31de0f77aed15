import RiscBoard.Log

/-!
What can be seen of the machine from outside: accesses to devices, calls to the host, bytes written
to the console and log records, in the order in which they happen. A computation that causes events
is a value together with them.
-/

namespace RiscBoard

inductive DeviceAccess where
  | read (location : UInt32) (size : AccessSize)
  | write (location : UInt32) (size : AccessSize) (value : UInt32)
  deriving DecidableEq

inductive DeviceId where
  | memory (index : Nat)
  | port (index : Nat)
  deriving DecidableEq

inductive HookKind where
  | syscall
  | debug
  deriving DecidableEq

/-- A call to the host: the instruction, its immediate, and the registers as it finds them. -/
structure HookCall where
  kind : HookKind
  immediate : UInt32
  registers : RegisterFile
  deriving DecidableEq

inductive Event where
  | access (device : DeviceId) (access : DeviceAccess)
  | hookCall (call : HookCall)
  | output (bytes : List UInt8)
  | log (entry : LogRecord)
  deriving DecidableEq

def Event.outputBytes (events : List Event) : List UInt8 :=
  events.flatMap fun event =>
    match event with
    | .output bytes => bytes
    | _ => []

/-- A value and the events that computing it causes. -/
structure Traced (α : Type) where
  value : α
  events : List Event

namespace Traced

instance : Monad Traced where
  pure value := ⟨value, []⟩
  bind first next :=
    let second := next first.value
    ⟨second.value, first.events ++ second.events⟩

def emit (event : Event) : Traced Unit := ⟨(), [event]⟩

def log (entry : LogRecord) : Traced Unit := emit (.log entry)

variable {α β : Type}

@[simp] theorem value_pure (value : α) : (pure value : Traced α).value = value := rfl

@[simp] theorem events_pure (value : α) : (pure value : Traced α).events = [] := rfl

@[simp] theorem value_bind (first : Traced α) (next : α → Traced β) :
    (first >>= next).value = (next first.value).value := rfl

@[simp] theorem events_bind (first : Traced α) (next : α → Traced β) :
    (first >>= next).events = first.events ++ (next first.value).events := rfl

@[simp] theorem events_emit (event : Event) : (emit event).events = [event] := rfl

@[simp] theorem events_log (entry : LogRecord) : (log entry).events = [.log entry] := rfl

@[ext] theorem ext {first second : Traced α} (value : first.value = second.value)
    (events : first.events = second.events) : first = second := by
  cases first
  cases second
  simp_all

instance : LawfulMonad Traced := LawfulMonad.mk' Traced
  (fun _ => Traced.ext rfl (List.append_nil _))
  (fun _ _ => Traced.ext rfl (List.nil_append _))
  (fun _ _ _ => Traced.ext rfl (List.append_assoc ..))

end Traced

end RiscBoard
