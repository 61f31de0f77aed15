import RiscBoard.AddressRange

/-!
The regions of a board's physical address space and the check that no two of them collide.
-/

namespace RiscBoard

inductive Region where
  | mainMemory
  | biosRam
  | biosRom
  | ioWindow
  deriving DecidableEq

def Region.text : Region → String
  | mainMemory => "main memory"
  | biosRam => "BIOS RAM"
  | biosRom => "BIOS ROM"
  | ioWindow => "I/O window"

inductive BoardError where
  | outOfBounds (region : Region) (bounds : InvalidBounds)
  | overlap (region other : Region)
  deriving DecidableEq

def BoardError.message : BoardError → String
  | outOfBounds region _ => region.text ++ " does not fit in the address space"
  | overlap region other => region.text ++ " overlaps " ++ other.text

abbrev Layout := List (Region × AddressRange)

namespace Layout

/-- The first region that collides with one before it, and the first such one. -/
def collision? (earlier : Layout) : Layout → Option (Region × Region)
  | [] => none
  | (region, range) :: later =>
    match earlier.find? fun other => range.overlaps other.2 with
    | some other => some (region, other.1)
    | none => collision? (earlier ++ [(region, range)]) later

end Layout

end RiscBoard
