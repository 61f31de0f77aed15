/-!
The sizes and kinds of a memory access. An instruction fetch is an access of size `exec`: a full
word that is never masked.
-/

namespace RiscBoard

inductive AccessSize where
  | byte
  | short
  | long
  | exec
  deriving DecidableEq

inductive AccessKind where
  | read
  | write
  | execute
  deriving DecidableEq

namespace AccessSize

def table : Vector AccessSize 4 := #v[byte, short, long, exec]

def ofCode (code : Fin 4) : AccessSize := table.get code

def ofNat? (code : Nat) : Option AccessSize := table[code]?

def code : AccessSize → Nat
  | byte => 0
  | short => 1
  | long => 2
  | exec => 3

@[simp] theorem ofNat?_code (size : AccessSize) : ofNat? size.code = some size := by
  cases size <;> rfl

@[simp] theorem code_ofCode : ∀ code : Fin 4, (ofCode code).code = code.val := by decide

def bytes : AccessSize → Nat
  | byte => 1
  | short => 2
  | long => 4
  | exec => 4

def mask : AccessSize → UInt32
  | byte => 0x000000ff
  | short => 0x0000ffff
  | long => 0xffffffff
  | exec => 0xffffffff

def truncate (size : AccessSize) (value : UInt32) : UInt32 :=
  value &&& size.mask

def isAligned (size : AccessSize) (address : UInt32) : Bool :=
  address.toNat % size.bytes == 0

def letter : AccessSize → String
  | byte => "b"
  | short => "s"
  | long => "l"
  | exec => "x"

end AccessSize

end RiscBoard
