import Mathlib.Data.List.Induction
import RiscBoard.Memory.Ram

/-!
Overwriting memory with runs of bytes. A run takes effect where the memory has its addresses, as if its
bytes were put there one by one (`pokeAll_zipIdx`). Bytes with different addresses can be put in any
order and leave the very same memory, so that a run may be cut into pieces and the pieces written in
any order.
-/

namespace RiscBoard

namespace Bytes

theorem eq_of_byteAt {bytes other : ByteArray} (size : bytes.size = other.size)
    (same : ∀ index, byteAt bytes index = byteAt other index) : bytes = other := by
  refine ByteArray.ext_getElem size fun index inside otherInside => ?_
  have byte := same index
  rwa [byteAt, byteAt, dif_pos inside, dif_pos otherInside] at byte

theorem byteAt_extract (bytes : ByteArray) {first last index : Nat}
    (inside : first + index < last) :
    byteAt (bytes.extract first last) index = byteAt bytes (first + index) := by
  rw [byteAt_eq_data, byteAt_eq_data, ByteArray.data_extract, Array.getElem?_extract]
  split
  next => rfl
  next outside => rw [Array.getElem?_eq_none (by omega)]

theorem size_put (bytes : ByteArray) (index : Nat) (value : UInt8) :
    (put bytes index value).size = max bytes.size (index + 1) := by
  unfold put
  split
  next inside =>
    have kept : (bytes.set index value inside).size = bytes.size := Array.size_set ..
    omega
  next outside =>
    rw [ByteArray.size_push, ByteArray.size_append, size_zeros]
    omega

theorem put_comm (bytes : ByteArray) {index other : Nat} (distinct : index ≠ other)
    (value otherValue : UInt8) :
    put (put bytes index value) other otherValue =
      put (put bytes other otherValue) index value := by
  apply eq_of_byteAt
  · simp only [size_put]
    omega
  · intro found
    simp only [byteAt_put]
    by_cases first : index = found
    · have second : other ≠ found := fun same => distinct (first.trans same.symm)
      simp only [first, second, ↓reduceIte]
    · simp only [first, ↓reduceIte]

end Bytes

namespace Contents

theorem setByte_of_size_le {contents : Contents} {index : Nat} (past : contents.size ≤ index)
    (value : UInt8) : contents.setByte index value = contents := by
  obtain ⟨size, pages, covered⟩ := contents
  exact if_neg (Nat.not_lt_of_le past)

theorem setByte_comm (contents : Contents) {index other : Nat} (distinct : index ≠ other)
    (value otherValue : UInt8) :
    (contents.setByte index value).setByte other otherValue =
      (contents.setByte other otherValue).setByte index value := by
  by_cases inside : index < contents.size
  · by_cases otherInside : other < contents.size
    · obtain ⟨size, pages, covered⟩ := contents
      dsimp only at inside otherInside
      simp only [setByte, inside, otherInside, ↓reduceIte, Contents.mk.injEq, true_and]
      apply Array.ext_getElem?
      intro number
      simp only [Array.getElem?_modify]
      by_cases here : index / pageSize = number
      · by_cases otherHere : other / pageSize = number
        · have places : index % pageSize ≠ other % pageSize := by
            unfold pageSize at *
            omega
          simp only [here, otherHere, ↓reduceIte, Option.map_map]
          congr 1
          funext page
          exact Bytes.put_comm page places value otherValue
        · simp only [here, otherHere, ↓reduceIte]
      · simp only [here, ↓reduceIte]
    · have past := Nat.le_of_not_lt otherInside
      have stillPast : (contents.setByte index value).size ≤ other := by rwa [size_setByte]
      rw [setByte_of_size_le past, setByte_of_size_le stillPast]
  · have past := Nat.le_of_not_lt inside
    have stillPast : (contents.setByte other otherValue).size ≤ index := by rwa [size_setByte]
    rw [setByte_of_size_le past, setByte_of_size_le stillPast]

theorem patch_succ (contents : Contents) (offset count : Nat) (source : Nat → UInt8) :
    contents.patch offset (count + 1) source =
      (contents.patch offset count source).setByte (offset + count) (source count) := by
  simp only [patch, Nat.fold_succ]

theorem patch_congr (contents : Contents) (offset : Nat) {count : Nat} {source other : Nat → UInt8}
    (same : ∀ distance < count, source distance = other distance) :
    contents.patch offset count source = contents.patch offset count other := by
  induction count with
  | zero => rfl
  | succ count ih =>
    rw [patch_succ, patch_succ, same count (Nat.lt_succ_self count),
      ih fun distance inside => same distance (Nat.lt_succ_of_lt inside)]

end Contents

namespace Ram

theorem eq_of_contents {memory other : Ram} (range : memory.range = other.range)
    (contents : memory.contents = other.contents) : memory = other := by
  cases memory
  cases other
  simp_all

def poke (memory : Ram) (place : Nat) (value : UInt8) : Ram where
  range := memory.range
  contents :=
    if memory.range.start.toNat ≤ place then
      memory.contents.setByte (place - memory.range.start.toNat) value
    else memory.contents
  size_eq := by
    split
    · rw [Contents.size_setByte, memory.size_eq]
    · exact memory.size_eq

theorem contents_poke_of_le {memory : Ram} {place : Nat} (above : memory.range.start.toNat ≤ place)
    (value : UInt8) :
    (memory.poke place value).contents =
      memory.contents.setByte (place - memory.range.start.toNat) value :=
  if_pos above

theorem poke_of_lt {memory : Ram} {place : Nat} (below : place < memory.range.start.toNat)
    (value : UInt8) : memory.poke place value = memory :=
  eq_of_contents rfl (if_neg (Nat.not_le_of_lt below))

theorem poke_comm (memory : Ram) {place other : Nat} (distinct : place ≠ other)
    (value otherValue : UInt8) :
    (memory.poke place value).poke other otherValue =
      (memory.poke other otherValue).poke place value := by
  rcases Nat.lt_or_ge place memory.range.start.toNat with below | above
  · have stillBelow : place < (memory.poke other otherValue).range.start.toNat := below
    rw [poke_of_lt below, poke_of_lt stillBelow]
  · rcases Nat.lt_or_ge other memory.range.start.toNat with otherBelow | otherAbove
    · have stillBelow : other < (memory.poke place value).range.start.toNat := otherBelow
      rw [poke_of_lt otherBelow, poke_of_lt stillBelow]
    · have offsets : place - memory.range.start.toNat ≠ other - memory.range.start.toNat := by omega
      have stillAbove : memory.range.start.toNat ≤ place ∧ memory.range.start.toNat ≤ other :=
        ⟨above, otherAbove⟩
      refine eq_of_contents rfl ?_
      simp only [poke, stillAbove, ↓reduceIte]
      exact Contents.setByte_comm _ offsets value otherValue

/-- The memory with `count` bytes overwritten that follow each other from a physical address on, as far
as it has their addresses. -/
def overwrite (memory : Ram) (place count : Nat) (byte : Nat → UInt8) : Ram where
  range := memory.range
  contents :=
    let low := max place memory.range.start.toNat
    let high := min (place + count) memory.range.stop
    memory.contents.patch (low - memory.range.start.toNat) (high - low)
      fun distance => byte (low - place + distance)
  size_eq := by rw [Contents.size_patch, memory.size_eq]

@[simp] theorem range_overwrite (memory : Ram) (place count : Nat) (byte : Nat → UInt8) :
    (memory.overwrite place count byte).range = memory.range := rfl

theorem contents_overwrite (memory : Ram) (place count : Nat) (byte : Nat → UInt8) :
    (memory.overwrite place count byte).contents =
      memory.contents.patch (max place memory.range.start.toNat - memory.range.start.toNat)
        (min (place + count) memory.range.stop - max place memory.range.start.toNat)
        fun distance => byte (max place memory.range.start.toNat - place + distance) := rfl

theorem byteAt_overwrite (memory : Ram) (place count : Nat) (byte : Nat → UInt8) (index : Nat) :
    (memory.overwrite place count byte).contents.byteAt index =
      if place ≤ memory.range.start.toNat + index ∧
          memory.range.start.toNat + index < min (place + count) memory.range.stop then
        byte (memory.range.start.toNat + index - place)
      else memory.contents.byteAt index := by
  have size : memory.contents.size = memory.range.stop - memory.range.start.toNat := memory.size_eq
  rw [contents_overwrite, Contents.byteAt_patch]
  split
  next written =>
    rw [if_pos (by omega)]
    congr 1
    omega
  next unwritten => rw [if_neg (by omega)]

theorem overwrite_of_le (memory : Ram) {place count : Nat} (byte : Nat → UInt8)
    (below : place + count ≤ memory.range.start.toNat) :
    memory.overwrite place count byte = memory := by
  refine eq_of_contents rfl ?_
  have nothing : min (place + count) memory.range.stop - max place memory.range.start.toNat = 0 := by
    omega
  rw [contents_overwrite, nothing]
  rfl

/-- One more byte of a run is put behind the others. -/
theorem poke_overwrite (memory : Ram) (place count : Nat) (byte : Nat → UInt8) :
    (memory.overwrite place count byte).poke (place + count) (byte count) =
      memory.overwrite place (count + 1) byte := by
  have size : memory.contents.size = memory.range.stop - memory.range.start.toNat := memory.size_eq
  rcases Nat.lt_or_ge (place + count) memory.range.start.toNat with below | above
  · rw [memory.overwrite_of_le byte (Nat.le_of_lt below), memory.overwrite_of_le byte below,
      poke_of_lt below]
  · refine eq_of_contents rfl ?_
    rw [contents_poke_of_le (by exact above), range_overwrite, contents_overwrite,
      contents_overwrite]
    by_cases inside : place + count < memory.range.stop
    · have longer : min (place + (count + 1)) memory.range.stop - max place memory.range.start.toNat =
          min (place + count) memory.range.stop - max place memory.range.start.toNat + 1 := by omega
      rw [longer, Contents.patch_succ]
      congr 1
      · omega
      · congr 1
        omega
    · have past : memory.contents.size ≤ place + count - memory.range.start.toNat := by omega
      have same : min (place + (count + 1)) memory.range.stop =
          min (place + count) memory.range.stop := by omega
      rw [Contents.setByte_of_size_le (by rwa [Contents.size_patch]), same]

theorem overwrite_congr (memory : Ram) (place : Nat) {count : Nat} {byte other : Nat → UInt8}
    (same : ∀ distance < count, byte distance = other distance) :
    memory.overwrite place count byte = memory.overwrite place count other := by
  refine eq_of_contents rfl ?_
  rw [contents_overwrite, contents_overwrite]
  exact Contents.patch_congr _ _ fun distance inside => same _ (by omega)

def pokeAll (memory : Ram) (cells : List (UInt8 × Nat)) : Ram :=
  cells.foldl (fun changed cell => changed.poke cell.2 cell.1) memory

/-- Overwriting with a run of bytes puts each byte at its address. -/
theorem pokeAll_zipIdx (memory : Ram) (place : Nat) (bytes : List UInt8) :
    memory.pokeAll (bytes.zipIdx place) =
      memory.overwrite place bytes.length fun distance => bytes.getD distance 0 := by
  induction bytes using List.reverseRecOn with
  | nil =>
    refine eq_of_contents rfl ?_
    have nothing : min (place + 0) memory.range.stop - max place memory.range.start.toNat = 0 := by
      omega
    rw [List.length_nil, contents_overwrite, nothing]
    rfl
  | append_singleton bytes last ih =>
    have earlier : ∀ distance < bytes.length,
        bytes.getD distance 0 = (bytes ++ [last]).getD distance 0 := by
      intro distance inside
      simp [List.getElem?_append_left inside]
    have final : last = (bytes ++ [last]).getD bytes.length 0 := by simp
    have split : memory.pokeAll ((bytes ++ [last]).zipIdx place) =
        (memory.pokeAll (bytes.zipIdx place)).poke (place + bytes.length) last := by
      rw [List.zipIdx_append, pokeAll, List.foldl_append]
      rfl
    rw [split, ih, List.length_append, List.length_singleton, ← poke_overwrite, ← final,
      overwrite_congr memory place earlier]

theorem pokeAll_of_perm (memory : Ram) {place : Nat} {bytes : List UInt8}
    {order : List (UInt8 × Nat)} (perm : order.Perm (bytes.zipIdx place)) :
    memory.pokeAll order = memory.pokeAll (bytes.zipIdx place) := by
  refine perm.foldl_eq' (fun cell member other otherMember changed => ?_) memory
  obtain ⟨value, address⟩ := cell
  obtain ⟨otherValue, otherAddress⟩ := other
  by_cases same : address = otherAddress
  · have byte := List.mem_zipIdx (perm.mem_iff.1 member)
    have otherByte := List.mem_zipIdx (perm.mem_iff.1 otherMember)
    subst same
    have values : value = otherValue := byte.2.2.trans otherByte.2.2.symm
    rw [values]
  · exact changed.poke_comm same value otherValue

end Ram

end RiscBoard
