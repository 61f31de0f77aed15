import RiscBoard.CommandLine.Quantity

/-!
The arguments of the command line. Words are read from left to right. An option that takes a value
may have it attached, after an equals sign, or in the next word; such a next word is looked at only
when the word after it is reached, so an unknown option is reported before a bad value in front of
it.
-/

namespace RiscBoard

structure Arguments where
  elf : Option String
  bios : Option String
  memorySize : UInt32
  memoryBase : UInt32
  /-- Zero runs as fast as possible. -/
  cpuSpeed : UInt64
  cycles : Option UInt64
  trace : Bool
  flushOnTransfer : Bool
  disassemble : Bool
  deriving DecidableEq

inductive ArgumentRefusal where
  | unknownArgument
  | invalidValue
  | valueValidation
  | missingRequired
  | conflict
  | tooManyValues
  | displayHelp
  | displayVersion
  deriving DecidableEq

def ArgumentRefusal.message : ArgumentRefusal → String
  | unknownArgument => "unexpected argument"
  | invalidValue => "an option has no value"
  | valueValidation => "an option has a value that it cannot have"
  | missingRequired => "there is no ELF file to disassemble"
  | conflict => "an option is given twice"
  | tooManyValues => "an option that has no value is given one"
  | displayHelp => "usage: riscboard [OPTIONS] [ELF]"
  | displayVersion => "riscboard 0.1.0"

def ArgumentRefusal.exitStatus : ArgumentRefusal → Nat
  | displayHelp | displayVersion => 0
  | _ => 2

namespace CommandLine

inductive Flag where
  | trace
  | flushOnTransfer
  | disassemble
  | help
  | version
  deriving DecidableEq

inductive Setting where
  | elf
  | bios
  | memorySize
  | memoryBase
  | cpuSpeed
  | cycles
  deriving DecidableEq

inductive OptionName where
  | flag (flag : Flag)
  | setting (setting : Setting)
  deriving DecidableEq

def ofLong? : String → Option OptionName
  | "bios" => some (.setting .bios)
  | "memory-size" => some (.setting .memorySize)
  | "memory-base" => some (.setting .memoryBase)
  | "cpu-speed" => some (.setting .cpuSpeed)
  | "cycles" => some (.setting .cycles)
  | "trace" => some (.flag .trace)
  | "flush-on-flow-transfer" => some (.flag .flushOnTransfer)
  | "disassemble" => some (.flag .disassemble)
  | "help" => some (.flag .help)
  | "version" => some (.flag .version)
  | _ => none

def ofShort? : Char → Option OptionName
  | 'b' => some (.setting .bios)
  | 'M' => some (.setting .memorySize)
  | 's' => some (.setting .cpuSpeed)
  | 'c' => some (.setting .cycles)
  | 't' => some (.flag .trace)
  | 'd' => some (.flag .disassemble)
  | 'h' => some (.flag .help)
  | 'V' => some (.flag .version)
  | _ => none

structure Found where
  elf : Option String
  bios : Option String
  memorySize : Option Nat
  memoryBase : Option Nat
  cpuSpeed : Option Nat
  cycles : Option Nat
  flags : List Flag

def Found.nothing : Found := ⟨none, none, none, none, none, none, []⟩

/-- A setting that is not settled yet: its value may still be missing. -/
structure Pending where
  setting : Setting
  value : Option String

structure Scan where
  found : Found
  pending : Option Pending
  /-- A positional argument has been seen; there can be only one. -/
  positionalSeen : Bool
  /-- Everything after `--` is positional. -/
  optionsEnded : Bool

def Scan.start : Scan := ⟨.nothing, none, false, false⟩

/-- Stores a value unless there is one, whatever the new value is worth. -/
def fill {α : Type} (current : Option α) (value : Except ArgumentRefusal α) :
    Except ArgumentRefusal (Option α) :=
  if current.isSome then .error .conflict else value.map some

def pathValue (text : String) : Except ArgumentRefusal String :=
  if text.isEmpty then .error .invalidValue else .ok text

def quantityValue (value : Except QuantityError Nat) : Except ArgumentRefusal Nat :=
  value.mapError fun _ => .valueValidation

def countValue (text : String) : Except ArgumentRefusal Nat :=
  (Quantity.parseCount? text).elim (.error .valueValidation) .ok

def Found.assign (found : Found) (setting : Setting) (text : String) :
    Except ArgumentRefusal Found :=
  match setting with
  | .elf => (fill found.elf (pathValue text)).map fun value => { found with elf := value }
  | .bios => (fill found.bios (pathValue text)).map fun value => { found with bios := value }
  | .memorySize =>
    (fill found.memorySize (quantityValue (Quantity.parseSize text))).map fun value =>
      { found with memorySize := value }
  | .memoryBase =>
    (fill found.memoryBase (quantityValue (Quantity.parseNumber text))).map fun value =>
      { found with memoryBase := value }
  | .cpuSpeed =>
    (fill found.cpuSpeed (quantityValue (Quantity.parseFrequency text))).map fun value =>
      { found with cpuSpeed := value }
  | .cycles =>
    (fill found.cycles (countValue text)).map fun value => { found with cycles := value }

def Scan.settle (scan : Scan) : Except ArgumentRefusal Scan :=
  match scan.pending with
  | none => .ok scan
  | some ⟨_, none⟩ => .error .invalidValue
  | some ⟨setting, some text⟩ =>
    (scan.found.assign setting text).map fun found =>
      { scan with found := found, pending := none }

def Scan.raiseFlag (scan : Scan) (flag : Flag) : Except ArgumentRefusal Scan := do
  let scan ← scan.settle
  match flag with
  | .help => .error .displayHelp
  | .version => .error .displayVersion
  | _ =>
    if flag ∈ scan.found.flags then .error .conflict
    else .ok { scan with found := { scan.found with flags := flag :: scan.found.flags } }

def Scan.give (scan : Scan) (setting : Setting) (attached : Option String) :
    Except ArgumentRefusal Scan := do
  let scan ← scan.settle
  match attached with
  | some text => (scan.found.assign setting text).map fun found => { scan with found := found }
  | none => .ok { scan with pending := some ⟨setting, none⟩ }

def Scan.readLong (scan : Scan) (body : List Char) : Except ArgumentRefusal Scan :=
  let name := body.takeWhile (· ≠ '=')
  let value :=
    match body.dropWhile (· ≠ '=') with
    | [] => none
    | _ :: text => some (String.ofList text)
  match ofLong? (String.ofList name) with
  | none => .error .unknownArgument
  | some (.setting setting) => scan.give setting value
  | some (.flag flag) =>
    match value with
    | some _ => .error .tooManyValues
    | none => scan.raiseFlag flag

def attachedValue : List Char → Option String
  | [] => none
  | '=' :: text => some (String.ofList text)
  | text => some (String.ofList text)

/-- Reads a bundle of short options after its dash. The first option with a value takes the rest. -/
def Scan.readShort (scan : Scan) : List Char → Except ArgumentRefusal Scan
  | [] => .ok scan
  | c :: rest =>
    match ofShort? c with
    | none => .error .unknownArgument
    | some (.setting setting) => scan.give setting (attachedValue rest)
    | some (.flag flag) => (scan.raiseFlag flag).bind fun raised => raised.readShort rest

def Scan.readPositional (scan : Scan) (word : String) : Except ArgumentRefusal Scan :=
  if scan.positionalSeen then .error .unknownArgument
  else
    scan.settle.map fun settled =>
      { settled with pending := some ⟨.elf, some word⟩, positionalSeen := true }

/-- Reads a word that does not start an option: the value of the option before it, or a positional
argument. -/
def Scan.readPlain (scan : Scan) (word : String) : Except ArgumentRefusal Scan :=
  match scan.pending with
  | some ⟨setting, none⟩ => .ok { scan with pending := some ⟨setting, some word⟩ }
  | _ => scan.readPositional word

def Scan.readWord (scan : Scan) (word : String) : Except ArgumentRefusal Scan :=
  if scan.optionsEnded then scan.readPositional word
  else
    match word.toList with
    | ['-', '-'] => .ok { scan with optionsEnded := true }
    | '-' :: '-' :: body => scan.readLong body
    | '-' :: c :: body => scan.readShort (c :: body)
    | _ => scan.readPlain word

def Found.arguments (found : Found) : Arguments where
  elf := found.elf
  bios := found.bios
  memorySize := UInt32.ofNat (found.memorySize.getD 0x400000)
  memoryBase := UInt32.ofNat (found.memoryBase.getD 0x80000000)
  cpuSpeed := UInt64.ofNat (found.cpuSpeed.getD 0)
  cycles := found.cycles.map UInt64.ofNat
  trace := found.flags.contains .trace
  flushOnTransfer := found.flags.contains .flushOnTransfer
  disassemble := found.flags.contains .disassemble

/-- Reads the words of a command line. To disassemble there has to be a file. -/
def parse (words : List String) : Except ArgumentRefusal Arguments := do
  let scan ← words.foldlM Scan.readWord .start
  let settled ← scan.settle
  let arguments := settled.found.arguments
  if arguments.disassemble && arguments.elf.isNone then .error .missingRequired
  else .ok arguments

end CommandLine

end RiscBoard
