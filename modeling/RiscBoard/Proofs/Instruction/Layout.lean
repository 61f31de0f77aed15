import Mathlib.Algebra.Group.Nat.Defs
import RiscBoard.Word

/-!
Layouts of a word. A layout divides a word into pieces, from its lowest bit up; a piece either has
a value or is left open. Filling the open pieces with zeros gives a word that has the layout
(`follows_word`), and the words that have it are those that agree with this one on every bit the
layout fixes (`follows_iff_agrees`).
-/

namespace RiscBoard

namespace Word

theorem field_eq (word : UInt32) (low width : Nat) :
    field word low width = word.toNat / 2 ^ low % 2 ^ width := by
  simp [field, Nat.shiftRight_eq_div_pow, Nat.one_shiftLeft]

theorem testBit_field (word : UInt32) (low width position : Nat) :
    (field word low width).testBit position =
      (decide (position < width) && bit word (low + position)) := by
  rw [field_eq, Nat.testBit_mod_two_pow, Nat.testBit_div_two_pow, Nat.add_comm]
  rfl

theorem field_eq_field_iff (word other : UInt32) (low width : Nat) :
    field word low width = field other low width ↔
      ∀ position, low ≤ position → position < low + width →
        bit word position = bit other position := by
  constructor
  · intro same position above below
    have bits := congrArg (Nat.testBit · (position - low)) same
    simpa [testBit_field, show position - low < width by omega,
      show low + (position - low) = position by omega] using bits
  · intro same
    refine Nat.eq_of_testBit_eq fun position => ?_
    rw [testBit_field, testBit_field]
    by_cases inside : position < width
    · rw [same (low + position) (by omega) (by omega)]
    · simp [inside]

theorem field_add (word : UInt32) (low lower upper : Nat) :
    field word low (lower + upper) =
      field word low lower + 2 ^ lower * field word (low + lower) upper := by
  simp only [field_eq, Nat.pow_add, Nat.mod_mul, Nat.div_div_eq_div_mul]

end Word

/-- Adjacent bits of a word: a number, or bits that mean nothing. -/
inductive Piece where
  | bits (width value : Nat)
  | free (width : Nat)
  deriving DecidableEq

/-- The pieces of a word, from its lowest bit up. -/
abbrev BitLayout := List Piece

def Piece.width : Piece → Nat
  | .bits width _ => width
  | .free width => width

@[simp] theorem Piece.width_bits (width value : Nat) : (bits width value).width = width := rfl

@[simp] theorem Piece.width_free (width : Nat) : (free width).width = width := rfl

namespace BitLayout

def width : BitLayout → Nat
  | [] => 0
  | piece :: rest => piece.width + width rest

def value : BitLayout → Nat
  | [] => 0
  | .bits width value :: rest => value + 2 ^ width * BitLayout.value rest
  | .free width :: rest => 2 ^ width * BitLayout.value rest

def word (layout : BitLayout) : UInt32 := UInt32.ofNat layout.value

def Fits : BitLayout → Prop
  | [] => True
  | .bits width value :: rest => value < 2 ^ width ∧ Fits rest
  | .free _ :: rest => Fits rest

instance decidableFits : (layout : BitLayout) → Decidable layout.Fits
  | [] => inferInstanceAs (Decidable True)
  | .bits width value :: rest =>
    have := decidableFits rest
    inferInstanceAs (Decidable (value < 2 ^ width ∧ Fits rest))
  | .free _ :: rest => decidableFits rest

def FollowsFrom (word : UInt32) : Nat → BitLayout → Prop
  | _, [] => True
  | low, .bits width value :: rest =>
    Word.field word low width = value ∧ FollowsFrom word (low + width) rest
  | low, .free width :: rest => FollowsFrom word (low + width) rest

def Follows (layout : BitLayout) (word : UInt32) : Prop := FollowsFrom word 0 layout

def FixesFrom (position : Nat) : Nat → BitLayout → Prop
  | _, [] => False
  | low, .bits width _ :: rest =>
    low ≤ position ∧ position < low + width ∨ FixesFrom position (low + width) rest
  | low, .free width :: rest => FixesFrom position (low + width) rest

instance decidableFixesFrom (position : Nat) :
    (low : Nat) → (layout : BitLayout) → Decidable (FixesFrom position low layout)
  | _, [] => inferInstanceAs (Decidable False)
  | low, .bits width _ :: rest =>
    have := decidableFixesFrom position (low + width) rest
    inferInstanceAs (Decidable (_ ∨ _))
  | low, .free width :: rest => decidableFixesFrom position (low + width) rest

def Fixes (layout : BitLayout) (position : Nat) : Prop := FixesFrom position 0 layout

instance (layout : BitLayout) (position : Nat) : Decidable (layout.Fixes position) :=
  decidableFixesFrom position 0 layout

/-- A word follows a layout for its upper bits when these are the layout's number. -/
theorem followsFrom_of_value {word : UInt32} {layout : BitLayout} (fits : layout.Fits) {low : Nat}
    (upper : word.toNat / 2 ^ low = layout.value) : FollowsFrom word low layout := by
  induction layout generalizing low with
  | nil => trivial
  | cons piece rest ih =>
    have above (width : Nat) :
        word.toNat / 2 ^ (low + width) = word.toNat / 2 ^ low / 2 ^ width := by
      rw [Nat.pow_add, Nat.div_div_eq_div_mul]
    cases piece with
    | bits width number =>
      obtain ⟨room, fits⟩ := fits
      refine ⟨?_, ih fits ?_⟩
      · rw [Word.field_eq, upper, value, Nat.add_mul_mod_self_left, Nat.mod_eq_of_lt room]
      · rw [above, upper, value, Nat.add_mul_div_left _ _ (Nat.two_pow_pos width),
          Nat.div_eq_of_lt room, Nat.zero_add]
    | free width =>
      refine ih fits ?_
      rw [above, upper, value, Nat.mul_div_cancel_left _ (Nat.two_pow_pos width)]

theorem value_lt {layout : BitLayout} (fits : layout.Fits) : layout.value < 2 ^ layout.width := by
  induction layout with
  | nil => exact Nat.one_pos
  | cons piece rest ih =>
    cases piece with
    | bits width number =>
      obtain ⟨room, fits⟩ := fits
      calc value (.bits width number :: rest)
          < 2 ^ width + 2 ^ width * BitLayout.value rest := Nat.add_lt_add_right room _
        _ = 2 ^ width * (BitLayout.value rest + 1) := by rw [Nat.mul_add, Nat.mul_one, Nat.add_comm]
        _ ≤ 2 ^ width * 2 ^ BitLayout.width rest := Nat.mul_le_mul_left _ (ih fits)
        _ = 2 ^ BitLayout.width (.bits width number :: rest) := (Nat.pow_add ..).symm
    | free width =>
      rw [BitLayout.width, Piece.width, Nat.pow_add]
      exact Nat.mul_lt_mul_of_pos_left (ih fits) (Nat.two_pow_pos width)

theorem follows_word {layout : BitLayout} (fits : layout.Fits) (whole : layout.width = 32) :
    layout.Follows layout.word := by
  refine followsFrom_of_value fits ?_
  have small : layout.value < UInt32.size := by
    rw [show UInt32.size = 2 ^ layout.width from whole.symm ▸ rfl]
    exact value_lt fits
  rw [Nat.pow_zero, Nat.div_one]
  exact UInt32.toNat_ofNat_of_lt' small

/-- The words that follow a layout are those with the same bits as one of them where the layout
fixes the bits. -/
theorem followsFrom_iff_agrees {layout : BitLayout} {low : Nat} {word other : UInt32}
    (follows : FollowsFrom other low layout) :
    FollowsFrom word low layout ↔
      ∀ position, FixesFrom position low layout →
        Word.bit word position = Word.bit other position := by
  induction layout generalizing low with
  | nil => exact ⟨fun _ _ fixed => fixed.elim, fun _ => trivial⟩
  | cons piece rest ih =>
    cases piece with
    | bits width number =>
      obtain ⟨here, there⟩ := follows
      rw [FollowsFrom, ih there, ← here, Word.field_eq_field_iff]
      constructor
      · rintro ⟨inPiece, inRest⟩ position (⟨above, below⟩ | fixed)
        · exact inPiece position above below
        · exact inRest position fixed
      · intro agrees
        exact ⟨fun position above below => agrees position (.inl ⟨above, below⟩),
          fun position fixed => agrees position (.inr fixed)⟩
    | free width => exact ih follows

/-- A word follows a layout when it has the bits that the layout fixes. -/
theorem follows_iff_agrees {layout : BitLayout} (fits : layout.Fits) (whole : layout.width = 32)
    (word : UInt32) :
    layout.Follows word ↔
      ∀ position, layout.Fixes position →
        Word.bit word position = Word.bit layout.word position :=
  followsFrom_iff_agrees (follows_word fits whole)

end BitLayout

end RiscBoard
