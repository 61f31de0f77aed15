import RiscBoard.Elf.Image
import RiscBoard.Memory.Bytes

/-!
How the numbers of an ELF file are written: the width of its addresses and the order of its bytes,
both of which the file names at its start. Everything else in a file is found by place and size.
-/

namespace RiscBoard.Elf

inductive FileClass where
  | bits32
  | bits64
  deriving DecidableEq

inductive ByteOrder where
  | little
  | big
  deriving DecidableEq

structure Encoding where
  fileClass : FileClass
  order : ByteOrder
  deriving DecidableEq

def Extent.isText (extent : Extent) (bytes : ByteArray) : Bool :=
  extent.fits bytes && (String.fromUTF8? (extent.slice bytes)).isSome

def magic : List UInt8 := [0x7f, 0x45, 0x4c, 0x46]

def identificationSize : Nat := 16

def fileClass? (bytes : ByteArray) : Option FileClass :=
  match (Bytes.byteAt bytes 4).toNat with
  | 1 => some .bits32
  | 2 => some .bits64
  | _ => none

def byteOrder? (bytes : ByteArray) : Option ByteOrder :=
  match (Bytes.byteAt bytes 5).toNat with
  | 1 => some .little
  | 2 => some .big
  | _ => none

namespace Encoding

def ofFile? (bytes : ByteArray) : Option Encoding :=
  if bytes.size < identificationSize then none
  else if (List.range 4).map (Bytes.byteAt bytes) != magic then none
  else do
    let fileClass ← fileClass? bytes
    let order ← byteOrder? bytes
    some ⟨fileClass, order⟩

def addressSize (encoding : Encoding) : Nat :=
  match encoding.fileClass with
  | .bits32 => 4
  | .bits64 => 8

def number (encoding : Encoding) (bytes : ByteArray) (offset width : Nat) : Nat :=
  match encoding.order with
  | .little => Bytes.littleEndian (Bytes.byteAt bytes) offset width
  | .big =>
    (List.range width).foldl (fun value index =>
      256 * value + (Bytes.byteAt bytes (offset + index)).toNat) 0

def number? (encoding : Encoding) (bytes : ByteArray) (offset width : Nat) : Option Nat :=
  if Extent.fits ⟨offset, width⟩ bytes then some (encoding.number bytes offset width) else none

def address (encoding : Encoding) (bytes : ByteArray) (offset : Nat) : Nat :=
  encoding.number bytes offset encoding.addressSize

end Encoding

end RiscBoard.Elf
