/-!
Words of 32 bits seen as bit fields. A field is the number held by some adjacent bits; replacing one
bit leaves every other bit as it was.
-/

namespace RiscBoard.Word

/-- The number in the `width` bits of `word` whose lowest one is bit `low`. -/
def field (word : UInt32) (low width : Nat) : Nat :=
  (word.toNat >>> low) % (1 <<< width)

theorem field_lt (word : UInt32) (low width : Nat) : field word low width < 1 <<< width :=
  Nat.mod_lt _ (by rw [Nat.one_shiftLeft]; exact Nat.two_pow_pos width)

def bit (word : UInt32) (position : Nat) : Bool :=
  word.toBitVec.getLsbD position

def setBit (word : UInt32) (position : Nat) (value : Bool) : UInt32 :=
  let mask := BitVec.twoPow 32 position
  if value then ⟨word.toBitVec ||| mask⟩ else ⟨word.toBitVec &&& ~~~mask⟩

theorem bit_setBit (word : UInt32) (value : Bool) {position other : Nat} (inside : position < 32) :
    bit (setBit word position value) other = if position = other then value else bit word other := by
  cases value <;> by_cases same : position = other <;>
    simp [bit, setBit, BitVec.getLsbD_twoPow, inside, same]
  · intro set
    exact BitVec.lt_of_getLsbD set
  · omega

/-- A number of `width` bits read as two's complement and extended to a word. -/
def signExtend (width value : Nat) : UInt32 :=
  UInt32.ofNat (if value < 1 <<< (width - 1) then value else value + (UInt32.size - 1 <<< width))

end RiscBoard.Word
