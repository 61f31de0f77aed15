import Mathlib.Algebra.BigOperators.Intervals
import Mathlib.Tactic.Ring
import RiscBoard.Proofs.Bus.Access
import RiscBoard.Proofs.Memory.Overwriting
import RiscBoard.Proofs.Memory.Words

/-!
Accesses byte by byte. A number is the sum of its bytes, each with the weight of its place. It can be
put together from them with shifts, and taken apart with shifts, one byte after another at places that
are computed in 32 bits: memories have no bytes at other places, so that nothing is lost where a place
does not fit.
-/

namespace RiscBoard

namespace Bytes

def place? (offset : UInt32) (distance : Nat) : Option UInt32 :=
  if offset.toNat + distance < UInt32.size then some (.ofNat (offset.toNat + distance)) else none

theorem place?_of_lt {offset : UInt32} {distance : Nat}
    (fits : offset.toNat + distance < UInt32.size) :
    ∃ place, place? offset distance = some place ∧ place.toNat = offset.toNat + distance :=
  ⟨_, if_pos fits, UInt32.toNat_ofNat_of_lt' fits⟩

theorem place?_of_le {offset : UInt32} {distance : Nat}
    (overflows : UInt32.size ≤ offset.toNat + distance) : place? offset distance = none :=
  if_neg (Nat.not_lt_of_le overflows)

section Gathering

variable (byte : Nat → UInt8)

/-- The byte so far past an offset. There is none where the place is not a 32-bit number, and zero
stands for it. -/
def ahead (offset : UInt32) (distance : Nat) : UInt8 :=
  match place? offset distance with
  | some place => byte place.toNat
  | none => 0

def gather (offset : UInt32) (count : Nat) : UInt32 :=
  count.fold (fun distance _ number =>
    number ||| (ahead byte offset distance).toUInt32 <<< UInt32.ofNat (8 * distance)) 0

variable {byte}

/-- Without bytes past the 32-bit numbers every byte is found at its unbounded place. -/
theorem ahead_eq (blank : ∀ index, UInt32.size ≤ index → byte index = 0) (offset : UInt32)
    (distance : Nat) : ahead byte offset distance = byte (offset.toNat + distance) := by
  rw [ahead]
  rcases Nat.lt_or_ge (offset.toNat + distance) UInt32.size with fits | overflows
  · obtain ⟨place, found, same⟩ := place?_of_lt fits
    rw [found, ← same]
  · rw [place?_of_le overflows, blank _ overflows]

theorem littleEndian_succ_last (byte : Nat → UInt8) (offset count : Nat) :
    littleEndian byte offset (count + 1) =
      littleEndian byte offset count + (byte (offset + count)).toNat * 256 ^ count := by
  induction count generalizing offset with
  | zero => simp [littleEndian]
  | succ count ih =>
    rw [littleEndian, ih, littleEndian, Nat.add_assoc offset, Nat.add_comm 1 count]
    ring

theorem littleEndian_eq_sum (byte : Nat → UInt8) (offset count : Nat) :
    littleEndian byte offset count =
      ∑ distance ∈ Finset.range count, (byte (offset + distance)).toNat * 256 ^ distance := by
  induction count with
  | zero => rfl
  | succ count ih => rw [Finset.sum_range_succ, littleEndian_succ_last, ih]

theorem toNat_value_eq_sum (byte : Nat → UInt8) (offset : Nat) (size : AccessSize) :
    (value byte offset size).toNat =
      ∑ distance ∈ Finset.range size.bytes, (byte (offset + distance)).toNat * 256 ^ distance := by
  rw [toNat_value, littleEndian_eq_sum]

/-- A byte that is shifted past the bytes below it adds its weight. -/
theorem toNat_or_shiftLeft {number : UInt32} {count : Nat} (below : number.toNat < 2 ^ (8 * count))
    (short : count < 4) (next : UInt8) :
    (number ||| next.toUInt32 <<< UInt32.ofNat (8 * count)).toNat =
      number.toNat + next.toNat * 256 ^ count := by
  have weight : 2 ^ (8 * count) = 256 ^ count := Nat.pow_mul 2 8 count
  have shift : (UInt32.ofNat (8 * count)).toNat % 32 = 8 * count := by
    rw [UInt32.toNat_ofNat']
    omega
  have narrow : next.toNat * 256 ^ count < 2 ^ 32 :=
    calc next.toNat * 256 ^ count
        < 256 * 256 ^ count := Nat.mul_lt_mul_of_pos_right next.toNat_lt (Nat.pow_pos (by decide))
      _ = 256 ^ (count + 1) := by rw [Nat.pow_succ, Nat.mul_comm]
      _ ≤ 256 ^ 4 := Nat.pow_le_pow_right (by decide) short
      _ = 2 ^ 32 := by decide
  rw [UInt32.toNat_or, UInt32.toNat_shiftLeft, UInt8.toNat_toUInt32, shift, Nat.shiftLeft_eq, weight,
    Nat.mod_eq_of_lt narrow, ← weight, ← Nat.shiftLeft_eq, Nat.or_comm,
    ← Nat.shiftLeft_add_eq_or_of_lt below, Nat.add_comm]

theorem toNat_gather (blank : ∀ index, UInt32.size ≤ index → byte index = 0) (offset : UInt32)
    {count : Nat} (short : count ≤ 4) :
    (gather byte offset count).toNat = littleEndian byte offset.toNat count := by
  induction count with
  | zero => rfl
  | succ count ih =>
    have earlier := ih (Nat.le_of_succ_le short)
    have below : (gather byte offset count).toNat < 2 ^ (8 * count) := by
      rw [earlier]
      exact littleEndian_lt byte offset.toNat count
    have last := toNat_or_shiftLeft below short (ahead byte offset count)
    rw [littleEndian_succ_last, ← earlier, ← ahead_eq blank, ← last]
    simp only [gather, Nat.fold_succ]

theorem gather_eq_value (blank : ∀ index, UInt32.size ≤ index → byte index = 0) (offset : UInt32)
    (size : AccessSize) : gather byte offset size.bytes = value byte offset.toNat size := by
  have short : size.bytes ≤ 4 := by cases size <;> decide
  rw [← UInt32.toNat_inj, toNat_gather blank offset short, toNat_value]

end Gathering

theorem wordByte_of_shiftRight (value : UInt32) {distance : Nat} (short : distance < 4) :
    (value >>> UInt32.ofNat (8 * distance)).toUInt8 = wordByte value distance := by
  have shift : (UInt32.ofNat (8 * distance)).toNat % 32 = 8 * distance := by
    rw [UInt32.toNat_ofNat']
    omega
  rw [← UInt8.toNat_inj, UInt32.toNat_toUInt8, UInt32.toNat_shiftRight, shift, wordByte,
    UInt8.toNat_ofNat']

end Bytes

namespace Contents

/-- Takes `count` bytes out of a value with shifts, from byte `distance` on, and puts them one after
another at their places. It ends at the first place that is not a 32-bit number. -/
def scatter (contents : Contents) (offset value : UInt32) (distance : Nat) : Nat → Contents
  | 0 => contents
  | count + 1 =>
    match Bytes.place? offset distance with
    | none => contents
    | some place =>
      (contents.setByte place.toNat (value >>> UInt32.ofNat (8 * distance)).toUInt8).scatter
        offset value (distance + 1) count

/-- Once a run has reached the end it changes nothing more. -/
theorem patch_of_size_le (contents : Contents) {offset distance : Nat}
    (past : contents.size ≤ offset + distance) (count : Nat) (source : Nat → UInt8) :
    contents.patch offset (distance + count) source = contents.patch offset distance source := by
  induction count with
  | zero => rfl
  | succ count ih =>
    have stillPast : (contents.patch offset (distance + count) source).size ≤
        offset + (distance + count) := by
      rw [size_patch]
      omega
    rw [← Nat.add_assoc, patch_succ, setByte_of_size_le stillPast, ih]

theorem scatter_patch (contents : Contents) (room : contents.size ≤ UInt32.size)
    (offset value : UInt32) {distance count : Nat} (short : distance + count ≤ 4) :
    (contents.patch offset.toNat distance (Bytes.wordByte value)).scatter offset value distance
      count = contents.patch offset.toNat (distance + count) (Bytes.wordByte value) := by
  induction count generalizing distance with
  | zero => rfl
  | succ count ih =>
    rw [scatter]
    rcases Nat.lt_or_ge (offset.toNat + distance) UInt32.size with fits | overflows
    · obtain ⟨place, found, same⟩ := Bytes.place?_of_lt fits
      have next : distance + 1 + count = distance + (count + 1) := by omega
      rw [found]
      dsimp only
      rw [same, Bytes.wordByte_of_shiftRight value (by omega), ← patch_succ, ih (by omega), next]
    · have past := Nat.le_trans room overflows
      rw [Bytes.place?_of_le overflows, contents.patch_of_size_le past]

theorem scatter_eq_write (contents : Contents) (room : contents.size ≤ UInt32.size)
    (offset value : UInt32) (size : AccessSize) :
    contents.scatter offset value 0 size.bytes = contents.write offset.toNat value size := by
  have short : 0 + size.bytes ≤ 4 := by cases size <;> decide
  have whole := contents.scatter_patch room offset value short
  rw [Nat.zero_add] at whole
  exact whole

end Contents

end RiscBoard
