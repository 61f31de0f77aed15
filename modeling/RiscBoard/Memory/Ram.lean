import RiscBoard.AddressRange
import RiscBoard.Memory.Contents

/-!
Random access memory. A value may lie at any offset; bytes past the end read as zero and are not
written.
-/

namespace RiscBoard

structure Ram where
  range : AddressRange
  contents : Contents
  size_eq : contents.size = range.size

namespace Ram

def create (base : UInt32) (size : Nat) : Except InvalidBounds Ram :=
  (AddressRange.ofSize base size).map fun range => ⟨range, Contents.zeros range.size, rfl⟩

def size (ram : Ram) : Nat := ram.contents.size

def read (ram : Ram) (offset : UInt32) (size : AccessSize) : UInt32 :=
  ram.contents.read offset.toNat size

def write (ram : Ram) (offset value : UInt32) (size : AccessSize) : Ram :=
  match ram with
  | ⟨range, contents, size_eq⟩ =>
    ⟨range, contents.write offset.toNat value size, by simpa [Contents.write] using size_eq⟩

def load (ram : Ram) (offset : Nat) (source : ByteArray) : Ram :=
  match ram with
  | ⟨range, contents, size_eq⟩ =>
    ⟨range, contents.load offset source, by simpa [Contents.load] using size_eq⟩

def clear (ram : Ram) (offset count : Nat) : Ram :=
  match ram with
  | ⟨range, contents, size_eq⟩ =>
    ⟨range, contents.clear offset count, by simpa using size_eq⟩

def reset (ram : Ram) : Ram :=
  ⟨ram.range, Contents.zeros ram.range.size, rfl⟩

@[simp] theorem range_write (ram : Ram) (offset value : UInt32) (size : AccessSize) :
    (ram.write offset value size).range = ram.range := rfl

@[simp] theorem range_load (ram : Ram) (offset : Nat) (source : ByteArray) :
    (ram.load offset source).range = ram.range := rfl

@[simp] theorem range_clear (ram : Ram) (offset count : Nat) :
    (ram.clear offset count).range = ram.range := rfl

@[simp] theorem contents_write (ram : Ram) (offset value : UInt32) (size : AccessSize) :
    (ram.write offset value size).contents = ram.contents.write offset.toNat value size := rfl

@[simp] theorem contents_load (ram : Ram) (offset : Nat) (source : ByteArray) :
    (ram.load offset source).contents = ram.contents.load offset source := rfl

@[simp] theorem contents_clear (ram : Ram) (offset count : Nat) :
    (ram.clear offset count).contents = ram.contents.clear offset count := rfl

end Ram

end RiscBoard
