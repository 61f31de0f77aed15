import RiscBoard.AddressRange
import RiscBoard.Memory.Bytes

/-!
Read-only memory. Its contents are an image followed by zeros, and no access changes them.
-/

namespace RiscBoard

structure Rom where
  range : AddressRange
  /-- The first bytes; zeros follow. -/
  image : ByteArray
  image_fits : image.size ≤ range.size

namespace Rom

def create (base : UInt32) (size : Nat) (image : ByteArray) : Except InvalidBounds Rom :=
  (AddressRange.ofSize base size).map fun range =>
    ⟨range, image.extract 0 range.size, by rw [ByteArray.size_extract]; omega⟩

/-- Read-only memory exactly as large as `image`, whose size has to fit in a word. -/
def ofImage (base : UInt32) (image : ByteArray) : Except InvalidBounds Rom :=
  if image.size < addressSpaceSize then create base image.size image
  else .error ⟨base, base.toNat + image.size⟩

def size (rom : Rom) : Nat := rom.range.size

def read (rom : Rom) (offset : UInt32) (size : AccessSize) : UInt32 :=
  Bytes.read rom.image offset.toNat size

end Rom

end RiscBoard
