import RiscBoard.Mmu.Mapping

/-!
The cells that coprocessor exchange instructions address. Coprocessor 0 has the control words and
the exception registers, coprocessor 4 the control word of virtual memory followed by every
word of the active mapping table.
-/

namespace RiscBoard

structure InvalidCopRegister where
  cop : UInt8
  cell : UInt16
  deriving DecidableEq

def InvalidCopRegister.message (invalid : InvalidCopRegister) : String :=
  "coprocessor " ++ toString invalid.cop.toNat ++ " has no register " ++
    toString invalid.cell.toNat

inductive CopRegister where
  | control0
  | control1
  | cause
  | handler
  | exceptionPc
  | mmuControl
  | mapWord (slot : Fin 32) (field : EntryField)
  deriving DecidableEq

namespace CopRegister

def ofMapIndex (index : Fin 128) : CopRegister :=
  .mapWord ⟨index.val / 4, by omega⟩ (.ofCode ⟨index.val % 4, by omega⟩)

def resolve (cop : UInt8) (cell : UInt16) : Except InvalidCopRegister CopRegister :=
  match cop.toNat, cell.toNat with
  | 0, 0 => .ok .control0
  | 0, 1 => .ok .control1
  | 0, 2 => .ok .cause
  | 0, 3 => .ok .handler
  | 0, 4 => .ok .exceptionPc
  | 4, 0 => .ok .mmuControl
  | 4, index + 1 =>
    if inside : index < 128 then .ok (ofMapIndex ⟨index, inside⟩) else .error ⟨cop, cell⟩
  | _, _ => .error ⟨cop, cell⟩

end CopRegister

end RiscBoard
