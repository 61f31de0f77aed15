/-!
The general purpose registers. There are 32 of them; register 31 is the program counter, register
30 receives return addresses, and register 0 is forced back to zero at the end of each cycle.
-/

namespace RiscBoard

abbrev Register := Fin 32

namespace Register

def zero : Register := 0

def scratch : Register := 1

def argument : Register := 2

def link : Register := 30

def programCounter : Register := 31

def ofNat? (index : Nat) : Option Register :=
  if inside : index < 32 then some ⟨index, inside⟩ else none

def names : Vector String 32 :=
  #v["r0", "at", "a0", "x0", "x1", "x2", "x3", "x4", "x5", "x6", "x7", "x8", "x9", "x10", "x11",
    "x12", "x13", "x14", "x15", "x16", "x17", "x18", "x19", "x20", "x21", "x22", "x23", "x24",
    "fp", "sp", "lr", "pc"]

def name (register : Register) : String := names[register]

end Register

structure RegisterFile where
  cells : Vector UInt32 32
  deriving DecidableEq

namespace RegisterFile

def cleared : RegisterFile := ⟨Vector.replicate 32 0⟩

def get (file : RegisterFile) (register : Register) : UInt32 := file.cells[register]

def set (file : RegisterFile) (register : Register) (value : UInt32) : RegisterFile :=
  ⟨file.cells.set register value⟩

theorem get_set (file : RegisterFile) (register other : Register) (value : UInt32) :
    (file.set register value).get other = if register = other then value else file.get other := by
  simp [get, set, Vector.getElem_set, Fin.ext_iff]

@[simp] theorem get_set_self (file : RegisterFile) (register : Register) (value : UInt32) :
    (file.set register value).get register = value := by
  simp [get_set]

theorem get_set_of_ne (file : RegisterFile) {register other : Register} (value : UInt32)
    (distinct : register ≠ other) : (file.set register value).get other = file.get other := by
  simp [get_set, distinct]

@[simp] theorem get_cleared (register : Register) : cleared.get register = 0 := by
  simp [get, cleared]

theorem ext_get {file other : RegisterFile}
    (same : ∀ register, file.get register = other.get register) : file = other := by
  obtain ⟨cells⟩ := file
  obtain ⟨otherCells⟩ := other
  have cellsSame : cells = otherCells := Vector.ext fun index inside => same ⟨index, inside⟩
  rw [cellsSame]

def pc (file : RegisterFile) : UInt32 := file.get .programCounter

def setPc (file : RegisterFile) (value : UInt32) : RegisterFile := file.set .programCounter value

def clearZero (file : RegisterFile) : RegisterFile := file.set .zero 0

end RegisterFile

end RiscBoard
