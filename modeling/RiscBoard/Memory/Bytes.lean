import RiscBoard.Access

/-!
Byte buffers. Everything is said through one view, the byte at an index, which is zero past the end.
Numbers are read through a view, so that every container of bytes reads them by the same rule.
-/

namespace RiscBoard.Bytes

def byteAt (bytes : ByteArray) (index : Nat) : UInt8 :=
  if inside : index < bytes.size then bytes[index] else 0

theorem byteAt_of_size_le {bytes : ByteArray} {index : Nat} (past : bytes.size ≤ index) :
    byteAt bytes index = 0 :=
  dif_neg (Nat.not_lt_of_le past)

theorem byteAt_eq_data (bytes : ByteArray) (index : Nat) :
    byteAt bytes index = bytes.data[index]?.getD 0 := by
  unfold byteAt
  split
  · next inside =>
    rw [ByteArray.getElem_eq_getElem_data, Array.getElem?_eq_getElem inside, Option.getD_some]
  · next outside =>
    rw [Array.getElem?_eq_none (Nat.le_of_not_lt outside), Option.getD_none]

@[simp] theorem byteAt_empty (index : Nat) : byteAt .empty index = 0 := rfl

def zeros (size : Nat) : ByteArray :=
  if size = 0 then .empty
  else
    let half := zeros (size / 2)
    if size % 2 = 0 then half ++ half else (half ++ half).push 0

theorem data_zeros (size : Nat) : (zeros size).data = Array.replicate size 0 := by
  fun_induction zeros size with
  | case1 => rfl
  | case2 size _ half even ih =>
    rw [ByteArray.data_append, ih, Array.replicate_append_replicate]
    congr 1
    omega
  | case3 size _ half odd ih =>
    rw [ByteArray.data_push, ByteArray.data_append, ih, Array.replicate_append_replicate,
      ← Array.replicate_succ]
    congr 1
    omega

@[simp] theorem size_zeros (size : Nat) : (zeros size).size = size := by
  rw [← ByteArray.size_data, data_zeros, Array.size_replicate]

/-- The buffer with one byte replaced. It grows by zeros as far as that takes. -/
def put (bytes : ByteArray) (index : Nat) (value : UInt8) : ByteArray :=
  if inside : index < bytes.size then bytes.set index value inside
  else (bytes ++ zeros (index - bytes.size)).push value

theorem byteAt_put (bytes : ByteArray) (index other : Nat) (value : UInt8) :
    byteAt (put bytes index value) other =
      if index = other then value else byteAt bytes other := by
  simp only [byteAt_eq_data]
  unfold put
  split
  · next inside =>
    rw [ByteArray.data_set, Array.getElem?_set]
    split
    · rfl
    · rfl
  · next outside =>
    have reach : (bytes.data ++ Array.replicate (index - bytes.size) 0).size = index := by
      rw [Array.size_append, Array.size_replicate, ByteArray.size_data]
      omega
    rw [ByteArray.data_push, ByteArray.data_append, data_zeros, Array.getElem?_push, reach]
    by_cases same : index = other
    · rw [if_pos same.symm, if_pos same, Option.getD_some]
    · rw [if_neg (Ne.symm same), if_neg same, Array.getElem?_append]
      split
      · rfl
      · next past =>
        rw [Array.getElem?_replicate, Array.getElem?_eq_none (Nat.le_of_not_lt past)]
        split
        · rfl
        · rfl

def clear (bytes : ByteArray) (start stop : Nat) : ByteArray :=
  bytes.extract 0 start ++ zeros (min stop bytes.size - start) ++ bytes.extract stop bytes.size

theorem byteAt_clear (bytes : ByteArray) {start stop : Nat} (ordered : start ≤ stop)
    (index : Nat) :
    byteAt (clear bytes start stop) index =
      if start ≤ index ∧ index < stop then 0 else byteAt bytes index := by
  have size := bytes.size_data
  simp only [byteAt_eq_data, clear, ByteArray.data_append, ByteArray.data_extract, data_zeros,
    Array.getElem?_append, Array.getElem?_replicate, Array.getElem?_extract, Array.size_append,
    Array.size_extract, Array.size_replicate, ByteArray.size_data, Nat.sub_zero]
  grind

def littleEndian (byte : Nat → UInt8) (offset : Nat) : Nat → Nat
  | 0 => 0
  | count + 1 => (byte offset).toNat + 256 * littleEndian byte (offset + 1) count

def value (byte : Nat → UInt8) (offset : Nat) (size : AccessSize) : UInt32 :=
  UInt32.ofNat (littleEndian byte offset size.bytes)

/-- A number depends on its own bytes only. -/
theorem littleEndian_congr {byte other : Nat → UInt8} {offset otherOffset count : Nat}
    (same : ∀ distance < count, other (otherOffset + distance) = byte (offset + distance)) :
    littleEndian other otherOffset count = littleEndian byte offset count := by
  induction count generalizing offset otherOffset with
  | zero => rfl
  | succ count ih =>
    have first := same 0 (Nat.succ_pos count)
    have rest : ∀ distance < count,
        other (otherOffset + 1 + distance) = byte (offset + 1 + distance) := by
      intro distance inside
      rw [Nat.add_right_comm, Nat.add_assoc, Nat.add_right_comm offset, Nat.add_assoc offset]
      exact same (distance + 1) (Nat.succ_lt_succ inside)
    rw [Nat.add_zero, Nat.add_zero] at first
    rw [littleEndian, littleEndian, first, ih rest]

theorem value_congr {byte other : Nat → UInt8} {offset otherOffset : Nat} {size : AccessSize}
    (same : ∀ distance < size.bytes, other (otherOffset + distance) = byte (offset + distance)) :
    value other otherOffset size = value byte offset size := by
  rw [value, value, littleEndian_congr same]

/-- The value of an access to a buffer; bytes past the end count as zero. -/
def read (bytes : ByteArray) (offset : Nat) (size : AccessSize) : UInt32 :=
  value (byteAt bytes) offset size

def wordByte (value : UInt32) (index : Nat) : UInt8 :=
  UInt8.ofNat (value.toNat >>> (8 * index))

def ofWords (words : List UInt32) : ByteArray :=
  ⟨(words.flatMap fun word => (List.range 4).map (wordByte word)).toArray⟩

end RiscBoard.Bytes
