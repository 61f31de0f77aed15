import RiscBoard.Word

/-!
The control word of virtual memory. Bits without a meaning are kept as they were written.
-/

namespace RiscBoard

structure MmuControl where
  word : UInt32
  deriving DecidableEq

namespace MmuControl

open Word

def cleared : MmuControl := ⟨0⟩

def enabled (control : MmuControl) : Bool := bit control.word 0

def enableOnLevel1 (control : MmuControl) : Bool := bit control.word 8

def disableOnLevel0 (control : MmuControl) : Bool := bit control.word 9

def remapOnTransition (control : MmuControl) : Bool := bit control.word 10

def misalignmentFaults (control : MmuControl) : Bool := bit control.word 11

def activeTable (control : MmuControl) : Fin 4 :=
  ⟨field control.word 12 2, field_lt control.word 12 2⟩

def setEnabled (control : MmuControl) (value : Bool) : MmuControl :=
  ⟨setBit control.word 0 value⟩

def setEnableOnLevel1 (control : MmuControl) (value : Bool) : MmuControl :=
  ⟨setBit control.word 8 value⟩

def setDisableOnLevel0 (control : MmuControl) (value : Bool) : MmuControl :=
  ⟨setBit control.word 9 value⟩

def setRemapOnTransition (control : MmuControl) (value : Bool) : MmuControl :=
  ⟨setBit control.word 10 value⟩

def setMisalignmentFaults (control : MmuControl) (value : Bool) : MmuControl :=
  ⟨setBit control.word 11 value⟩

def setActiveTable (control : MmuControl) (table : Fin 4) : MmuControl :=
  ⟨setBit (setBit control.word 12 (table.val.testBit 0)) 13 (table.val.testBit 1)⟩

end MmuControl

end RiscBoard
