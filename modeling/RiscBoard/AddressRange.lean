import RiscBoard.Text.Number

/-!
Ranges of the 32-bit physical address space, closed below and open above. The upper end is kept as
an unbounded number, so that a range can reach the last address.
-/

namespace RiscBoard

def addressSpaceSize : Nat := UInt32.size

structure InvalidBounds where
  start : UInt32
  stop : Nat
  deriving DecidableEq

def InvalidBounds.message (bounds : InvalidBounds) : String :=
  "invalid address range bounds: start " ++ Text.hex bounds.start.toNat ++
    ", end " ++ Text.hex bounds.stop

/-- The addresses from `start` up to but not including `stop`. -/
structure AddressRange where
  start : UInt32
  stop : Nat
  start_le_stop : start.toNat ≤ stop
  stop_le_size : stop ≤ addressSpaceSize
  deriving DecidableEq

namespace AddressRange

def ofBounds (start : UInt32) (stop : Nat) : Except InvalidBounds AddressRange :=
  if ordered : start.toNat ≤ stop ∧ stop ≤ addressSpaceSize then
    .ok ⟨start, stop, ordered.1, ordered.2⟩
  else
    .error ⟨start, stop⟩

def ofSize (start : UInt32) (size : Nat) : Except InvalidBounds AddressRange :=
  ofBounds start (start.toNat + size)

theorem start_of_ofBounds {start : UInt32} {stop : Nat} {range : AddressRange}
    (made : ofBounds start stop = .ok range) : range.start = start ∧ range.stop = stop := by
  unfold ofBounds at made
  split at made
  · cases made
    exact ⟨rfl, rfl⟩
  · cases made

def size (range : AddressRange) : Nat := range.stop - range.start.toNat

def isEmpty (range : AddressRange) : Bool := range.start.toNat == range.stop

def contains (range : AddressRange) (address : UInt32) : Bool :=
  range.start ≤ address && address.toNat < range.stop

def offset? (range : AddressRange) (address : UInt32) : Option UInt32 :=
  if range.contains address then some (address - range.start) else none

/-- Whether each range starts before the other one stops. -/
def overlaps (range other : AddressRange) : Bool :=
  range.start.toNat < other.stop && other.start.toNat < range.stop

theorem overlaps_comm (range other : AddressRange) :
    range.overlaps other = other.overlaps range := by
  simp [overlaps, Bool.and_comm]

theorem contains_of_apart {range other : AddressRange} (apart : range.overlaps other = false)
    {address : UInt32} (inside : range.contains address = true) :
    other.contains address = false := by
  simp only [overlaps, contains, Bool.and_eq_true, Bool.and_eq_false_iff, decide_eq_true_eq,
    decide_eq_false_iff_not, UInt32.le_iff_toNat_le] at *
  omega

def text (range : AddressRange) : String :=
  "[" ++ Text.hexWord range.start.toNat ++ ", " ++ Text.hexWord range.stop ++ ")"

end AddressRange

end RiscBoard
