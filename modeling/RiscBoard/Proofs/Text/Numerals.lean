import Mathlib.Algebra.Group.Nat.Defs
import RiscBoard.CommandLine.Quantity
import RiscBoard.Text.Number

/-!
Written numbers. The digits of a number, with any zeros in front, are read back as that number, so
that every written form determines what it stands for.
-/

namespace RiscBoard

namespace Quantity

variable {base value digit : Nat} {c : Char} {chars : List Char}

theorem digit?_digitChar (below : base ≤ 16) (inside : digit < base) :
    digit? base digit.digitChar = some digit := by
  have hexadecimal : ∀ digit < 16, digit? 16 digit.digitChar = some digit := by decide
  have read := hexadecimal digit (by omega)
  rw [digit?, Option.filter_eq_some_iff] at read ⊢
  exact ⟨read.1, decide_eq_true inside⟩

theorem digits?_append (first second : List Char) :
    digits? base value (first ++ second) =
      (digits? base value first).bind fun value => digits? base value second := by
  induction first generalizing value with
  | nil => rfl
  | cons c rest ih =>
    rw [List.cons_append, digits?, digits?]
    cases digit? base c with
    | none => rfl
    | some digit => exact ih

theorem digits?_toDigits (above : 1 < base) (below : base ≤ 16) (value : Nat) :
    digits? base 0 (Nat.toDigits base value) = some value := by
  induction value using Nat.strongRecOn with
  | ind value ih =>
    by_cases small : value < base
    · rw [Nat.toDigits_of_lt_base small, digits?, digit?_digitChar below small]
      simp [digits?]
    · have last : value % base < base := Nat.mod_lt value (by omega)
      rw [Nat.toDigits_of_base_le above (by omega), digits?_append,
        ih (value / base) (Nat.div_lt_self (by omega) above), Option.bind_some, digits?,
        digit?_digitChar below last]
      simp [digits?, Nat.div_add_mod]

theorem digits?_zeros (positive : 0 < base) (count : Nat) (chars : List Char) :
    digits? base 0 (List.replicate count '0' ++ chars) = digits? base 0 chars := by
  have zero : digit? base '0' = some 0 := by
    rw [digit?, Option.filter_eq_some_iff]
    exact ⟨by decide, decide_eq_true positive⟩
  induction count with
  | zero => rfl
  | succ count ih =>
    rw [List.replicate_succ, List.cons_append, digits?, zero]
    exact ih

theorem digit?_isSome_of_mem (read : (digits? base value chars).isSome = true) (inside : c ∈ chars) :
    (digit? base c).isSome = true := by
  induction chars generalizing value with
  | nil => cases inside
  | cons first rest ih =>
    rw [digits?] at read
    cases known : digit? base first with
    | none =>
      rw [known] at read
      cases read
    | some digit =>
      rw [known] at read
      cases inside with
      | head => rw [known]; rfl
      | tail _ later => exact ih read later

theorem isAlphanum_of_digit? (known : (digit? base c).isSome = true) : c.isAlphanum = true := by
  obtain ⟨digit, known⟩ := Option.isSome_iff_exists.1 known
  rw [digit?, Option.filter_eq_some_iff] at known
  obtain ⟨known, _⟩ := known
  split at known
  next decimal =>
    have isDigit : c.isDigit = true :=
      Bool.and_eq_true_iff.2 ⟨decide_eq_true decimal.1, decide_eq_true decimal.2⟩
    exact Bool.or_eq_true_iff.2 (.inr isDigit)
  next =>
    split at known
    next lower =>
      have belowEnd : c.val ≤ 'z'.val := UInt32.le_trans lower.2 (by decide)
      have isLower : c.isLower = true :=
        Bool.and_eq_true_iff.2 ⟨decide_eq_true lower.1, decide_eq_true belowEnd⟩
      exact Bool.or_eq_true_iff.2 (.inl (Bool.or_eq_true_iff.2 (.inr isLower)))
    next =>
      split at known
      next upper =>
        have belowEnd : c.val ≤ 'Z'.val := UInt32.le_trans upper.2 (by decide)
        have isUpper : c.isUpper = true := decide_eq_true ⟨upper.1, belowEnd⟩
        exact Bool.or_eq_true_iff.2 (.inl (Bool.or_eq_true_iff.2 (.inl isUpper)))
      next => cases known

end Quantity

namespace Text

variable {base width value : Nat}

theorem digits?_paddedDigits (above : 1 < base) (below : base ≤ 16) (width value : Nat) :
    Quantity.digits? base 0 (paddedDigits base width value).toList = some value := by
  rw [paddedDigits, String.toList_ofList, List.leftpad, Quantity.digits?_zeros (by omega)]
  exact Quantity.digits?_toDigits above below value

theorem paddedDigits_inj (above : 1 < base) (below : base ≤ 16) {first second : Nat}
    (same : paddedDigits base width first = paddedDigits base width second) : first = second := by
  have read := digits?_paddedDigits above below width first
  rw [same, digits?_paddedDigits above below] at read
  exact (Option.some.inj read).symm

/-- The digits of a number, padded to at least two, are those of its upper part and the lowest
one. -/
theorem leftpad_toDigits_div (above : 1 < base) (width value : Nat) :
    List.leftpad (width + 2) '0' (Nat.toDigits base value) =
      List.leftpad (width + 1) '0' (Nat.toDigits base (value / base)) ++
        [(value % base).digitChar] := by
  by_cases small : value < base
  · have upper : Nat.toDigits base (value / base) = ['0'] := by
      rw [Nat.div_eq_of_lt small, Nat.toDigits_of_lt_base (by omega)]
      rfl
    rw [upper, Nat.toDigits_of_lt_base small, Nat.mod_eq_of_lt small]
    simp [List.leftpad, List.replicate_succ']
  · rw [Nat.toDigits_of_base_le above (Nat.le_of_not_lt small)]
    simp [List.leftpad]

/-- A number that has at most as many digits as asked for is written with exactly these. -/
theorem leftpad_toDigits (above : 1 < base) (width value : Nat)
    (fits : value < base ^ (width + 1)) :
    List.leftpad (width + 1) '0' (Nat.toDigits base value) =
      (List.range (width + 1)).reverse.map fun position =>
        (value / base ^ position % base).digitChar := by
  induction width generalizing value with
  | zero =>
    have small : value < base := by rwa [Nat.zero_add, Nat.pow_one] at fits
    rw [Nat.toDigits_of_lt_base small]
    simp [List.leftpad, List.range_succ, Nat.mod_eq_of_lt small]
  | succ width ih =>
    have upper : value / base < base ^ (width + 1) := by
      rw [Nat.div_lt_iff_lt_mul (by omega), ← Nat.pow_succ]
      exact fits
    have shifted (position : Nat) :
        value / base / base ^ position = value / base ^ (position + 1) := by
      rw [Nat.div_div_eq_div_mul, Nat.pow_succ, Nat.mul_comm]
    have positions : List.range (width + 2) = 0 :: (List.range (width + 1)).map Nat.succ :=
      List.range_succ_eq_map
    rw [leftpad_toDigits_div above, ih _ upper, positions]
    simp [shifted, Function.comp_def]

theorem hex_inj {first second : Nat} (same : hex first = hex second) : first = second :=
  paddedDigits_inj (by decide) (by decide) ((String.append_right_inj "0x").1 same)

theorem hexWord_inj {first second : Nat} (same : hexWord first = hexWord second) :
    first = second :=
  paddedDigits_inj (by decide) (by decide) ((String.append_right_inj "0x").1 same)

theorem digits?_toString (value : Nat) :
    Quantity.digits? 10 0 (toString value).toList = some value := by
  change Quantity.digits? 10 0 value.repr.toList = some value
  rw [Nat.toList_repr]
  exact Quantity.digits?_toDigits (by decide) (by decide) value

theorem toString_inj {first second : Nat} (same : toString first = toString second) :
    first = second := by
  have read := digits?_toString first
  rw [same, digits?_toString] at read
  exact (Option.some.inj read).symm

def Plain (text : String) : Prop := ∀ c ∈ text.toList, c.isAlphanum = true

instance (text : String) : Decidable (Plain text) :=
  decidable_of_iff (text.toList.all Char.isAlphanum = true) List.all_eq_true

theorem plain_of_digits? {text : String}
    (read : Quantity.digits? base 0 text.toList = some value) : Plain text := by
  intro c inside
  apply Quantity.isAlphanum_of_digit?
  exact Quantity.digit?_isSome_of_mem (Option.isSome_of_eq_some read) inside

theorem Plain.append {first second : String} (left : Plain first) (right : Plain second) :
    Plain (first ++ second) := by
  intro c inside
  rw [String.toList_append, List.mem_append] at inside
  exact inside.elim (left c) (right c)

theorem Plain.not_mem {text : String} {c : Char} (plain : Plain text)
    (mark : c.isAlphanum = false) : c ∉ text.toList := by
  intro inside
  have letter := plain c inside
  rw [mark] at letter
  cases letter

theorem plain_hexPrefix : Plain "0x" := by decide +kernel

theorem plain_hex (value : Nat) : Plain (hex value) :=
  plain_hexPrefix.append
    (plain_of_digits? (digits?_paddedDigits (by decide) (by decide) 1 value))

theorem plain_hexWord (value : Nat) : Plain (hexWord value) :=
  plain_hexPrefix.append
    (plain_of_digits? (digits?_paddedDigits (by decide) (by decide) 8 value))

theorem plain_toString (value : Nat) : Plain (toString value) :=
  plain_of_digits? (digits?_toString value)

end Text

end RiscBoard
