import RiscBoard.AddressRange
import RiscBoard.Exception
import RiscBoard.Instruction.Decode
import RiscBoard.Instruction.Text

/-!
What the machine reports about itself while it runs. A record holds the facts; its level and its
wording are functions of it, so that nothing the machine does can depend on how it is worded.
-/

namespace RiscBoard

inductive LogLevel where
  | warn
  | info
  | debug
  | trace
  deriving DecidableEq

namespace LogLevel

def rank : LogLevel → Nat
  | warn => 0
  | info => 1
  | debug => 2
  | trace => 3

/-- Whether a log that keeps records up to `threshold` keeps records of this level. -/
def keptBy (level threshold : LogLevel) : Bool := level.rank ≤ threshold.rank

def name : LogLevel → String
  | warn => "WARN"
  | info => "INFO"
  | debug => "DEBUG"
  | trace => "TRACE"

end LogLevel

inductive LogRecord where
  | romWriteIgnored (value address : UInt32)
  | consoleFailed (reason : String)
  | imageLoaded (entry : UInt64)
  | runStopped (cycles : UInt64) (pc : UInt32)
  | privilegeChanged (source target : PrivilegeLevel)
  | coreHalted (cycles : UInt64)
  | undecodable (word : UInt32) (error : DecodeError)
  | reservedTrap (level : PrivilegeLevel)
  | exceptionTaken (pc : UInt32) (level : PrivilegeLevel) (exception : Exception)
  | bytesLoaded (count address : Nat)
  | segmentPlaced (index : Nat) (start stop : UInt64) (address : Nat)
  | memoryAttached (range : AddressRange)
  | portsAttached (ports : List UInt16)
  | writeDropped (value address : UInt32)
  | executing (address : UInt32) (instruction : Instruction)
  | pipelineFlushed
  | coprocessorIgnored (word : UInt32)
  deriving DecidableEq

namespace LogRecord

def level : LogRecord → LogLevel
  | romWriteIgnored .. | consoleFailed .. => .warn
  | imageLoaded .. | runStopped .. => .info
  | privilegeChanged .. | coreHalted .. | undecodable .. | reservedTrap .. | exceptionTaken ..
  | bytesLoaded .. | segmentPlaced .. => .debug
  | memoryAttached .. | portsAttached .. | writeDropped .. | executing .. | pipelineFlushed
  | coprocessorIgnored .. => .trace

open Text

def message : LogRecord → String
  | romWriteIgnored value address =>
    "ignoring write of " ++ hex value.toNat ++ " to ROM at " ++ hexWord address.toNat
  | consoleFailed reason => "console output failed: " ++ reason
  | imageLoaded entry => "loaded ELF, entry point " ++ hexWord entry.toNat
  | runStopped cycles pc =>
    "stopped after " ++ toString cycles.toNat ++ " cycles at pc " ++ hexWord pc.toNat
  | privilegeChanged source target => "privilege level " ++ source.text ++ " -> " ++ target.text
  | coreHalted cycles => "core halted after " ++ toString cycles.toNat ++ " cycles"
  | undecodable word error => "cannot decode " ++ hexWord word.toNat ++ ": " ++ error.message
  | reservedTrap level => "reserved trap to " ++ level.text
  | exceptionTaken pc level exception =>
    "taking exception at " ++ hexWord pc.toNat ++ " (" ++ level.text ++ "): " ++
      exception.message ++ " (cause " ++ hexWord exception.code.toNat ++ ")"
  | bytesLoaded count address =>
    "loading " ++ toString count ++ " bytes at " ++ hexWord address
  | segmentPlaced index start stop address =>
    "loading segment " ++ toString index ++ " [" ++ hexWord start.toNat ++ ".." ++
      hexWord stop.toNat ++ "] at " ++ hexWord address
  | memoryAttached range => "attaching memory device at " ++ range.text
  | portsAttached ports =>
    "attaching port device on ports [" ++
      ", ".intercalate (ports.map fun port => hexDigits port.toNat) ++ "]"
  | writeDropped value address =>
    "dropping write of " ++ hex value.toNat ++ " to unmapped address " ++ hexWord address.toNat
  | executing address instruction => hexWord address.toNat ++ ": " ++ instruction.text
  | pipelineFlushed => "flushing pipeline"
  | coprocessorIgnored word => "ignoring coprocessor instruction " ++ hexWord word.toNat

end LogRecord

end RiscBoard
