import Mathlib.Data.List.Forall2
import Mathlib.Data.Nat.Digits.Defs
import RiscBoard.Proofs.Text.Numerals

/-!
The language of numbers on the command line. A text is a number if, without its prefix and all of its
underscores, it consists of digits of its base, with at most one plus sign before them; its value is
that of the digits. What is read as a number is a text of this language whose value is a 32-bit word
(`number?_eq_some_iff`), and each usual way to write a number is in the language, with its value
(`isNumber_of_writes`).
-/

namespace RiscBoard.Quantity

variable {base digit value : Nat} {c : Char} {chars text body : List Char}

def Denotes (base : Nat) (c : Char) (digit : Nat) : Prop :=
  digit < base ∧ ("0123456789abcdef".toList[digit]? = some c ∨
    "0123456789ABCDEF".toList[digit]? = some c)

def Spells (base : Nat) (chars : List Char) (value : Nat) : Prop :=
  ∃ digits : List Nat, digits ≠ [] ∧ List.Forall₂ (Denotes base) chars digits ∧
    value = Nat.ofDigits base digits.reverse

def HexPrefixed (text : List Char) : Prop := ['0', 'x'] <+: text ∨ ['0', 'X'] <+: text

inductive Based : List Char → Nat → List Char → Prop
  | hexadecimal (mark : Char) (body : List Char) (marks : mark = 'x' ∨ mark = 'X') :
      Based ('0' :: mark :: body) 16 body
  | decimal (text : List Char) (plain : ¬ HexPrefixed text) : Based text 10 text

/-- A number in its base, whose underscores count for nothing. -/
def IsNumber (text : List Char) (value : Nat) : Prop :=
  ∃ base body digits, Based text base body ∧
    (body.filter (· ≠ '_') = digits ∨ body.filter (· ≠ '_') = '+' :: digits) ∧
    Spells base digits value

def IsWord (text : List Char) (value : Nat) : Prop := IsNumber text value ∧ value < UInt32.size

/-- The usual ways to write a number, with underscores anywhere after the prefix. -/
inductive Writes (value : Nat) : List Char → Prop
  | decimal (text : List Char) (plain : text.filter (· ≠ '_') = (toString value).toList) :
      Writes value text
  | hexadecimal (body : List Char)
      (plain : body.filter (· ≠ '_') = (Text.hexDigits value).toList) :
      Writes value ("0x".toList ++ body)

instance (base : Nat) (c : Char) (digit : Nat) : Decidable (Denotes base c digit) :=
  inferInstanceAs (Decidable (_ ∧ _))

section Digits

theorem digit?_eq_some_iff_hexadecimal (below : base ≤ 16) :
    digit? base c = some digit ↔ digit < base ∧ digit? 16 c = some digit := by
  rw [digit?, digit?, Option.filter_eq_some_iff, Option.filter_eq_some_iff, decide_eq_true_eq,
    decide_eq_true_eq]
  constructor
  · rintro ⟨read, inside⟩
    exact ⟨inside, read, Nat.lt_of_lt_of_le inside below⟩
  · rintro ⟨inside, read, -⟩
    exact ⟨read, inside⟩

theorem denotes_iff_hexadecimal (below : base ≤ 16) :
    Denotes base c digit ↔ digit < base ∧ Denotes 16 c digit := by
  constructor
  · rintro ⟨inside, written⟩
    exact ⟨inside, Nat.lt_of_lt_of_le inside below, written⟩
  · rintro ⟨inside, -, written⟩
    exact ⟨inside, written⟩

/-- No digit is outside of ASCII, so a finite table says it all. -/
theorem toNat_lt_of_digit? (read : digit? base c = some digit) : c.toNat < 128 := by
  have below (last : Char) (ascii : last.toNat < 128) (ordered : c ≤ last) : c.toNat < 128 :=
    Nat.lt_of_le_of_lt (UInt32.le_iff_toNat_le.1 ordered) ascii
  rw [digit?, Option.filter_eq_some_iff] at read
  obtain ⟨read, -⟩ := read
  split at read
  next decimal => exact below '9' (by decide) decimal.2
  next =>
    split at read
    next lower => exact below 'f' (by decide) lower.2
    next =>
      split at read
      next upper => exact below 'F' (by decide) upper.2
      next => cases read

theorem denotes_of_digit? (read : digit? 16 c = some digit) : Denotes 16 c digit := by
  have table : ∀ code < 128,
      (digit? 16 (Char.ofNat code)).all (fun digit => Denotes 16 (Char.ofNat code) digit) = true := by
    decide +kernel
  have entry := table c.toNat (toNat_lt_of_digit? read)
  rw [Char.ofNat_toNat, read] at entry
  exact of_decide_eq_true entry

theorem digit?_of_denotes (denotes : Denotes 16 c digit) : digit? 16 c = some digit := by
  have lower : ∀ digit < 16,
      ("0123456789abcdef".toList[digit]?.all fun c => digit? 16 c = some digit) = true := by
    decide +kernel
  have upper : ∀ digit < 16,
      ("0123456789ABCDEF".toList[digit]?.all fun c => digit? 16 c = some digit) = true := by
    decide +kernel
  obtain ⟨inside, written | written⟩ := denotes
  · have entry := lower digit inside
    rw [written] at entry
    exact of_decide_eq_true entry
  · have entry := upper digit inside
    rw [written] at entry
    exact of_decide_eq_true entry

theorem digit?_eq_some_iff (below : base ≤ 16) :
    digit? base c = some digit ↔ Denotes base c digit := by
  rw [digit?_eq_some_iff_hexadecimal below, denotes_iff_hexadecimal below]
  exact and_congr_right fun _ => ⟨denotes_of_digit?, digit?_of_denotes⟩

/-- Digits continue a number as if it were the highest digit. -/
theorem digits?_eq_some_iff (below : base ≤ 16) (start : Nat) :
    digits? base start chars = some value ↔
      ∃ digits : List Nat, List.Forall₂ (Denotes base) chars digits ∧
        value = Nat.ofDigits base (digits.reverse ++ [start]) := by
  induction chars generalizing start with
  | nil =>
    constructor
    · rintro ⟨rfl⟩
      exact ⟨[], .nil, by simp⟩
    · rintro ⟨_, ⟨⟩, rfl⟩
      simp [digits?]
  | cons c rest ih =>
    -- the first digit joins the number before it
    have joined (digit : Nat) (digits : List Nat) :
        Nat.ofDigits base (digits.reverse ++ [base * start + digit]) =
          Nat.ofDigits base ((digit :: digits).reverse ++ [start]) := by
      have order : base * start + digit = digit + base * start := Nat.add_comm ..
      rw [List.reverse_cons, List.append_assoc, Nat.ofDigits_append, Nat.ofDigits_append, order]
      simp [Nat.ofDigits_cons]
    rw [digits?, Option.bind_eq_some_iff]
    constructor
    · rintro ⟨digit, read, more⟩
      obtain ⟨digits, denote, same⟩ := (ih _).1 more
      exact ⟨digit :: digits, .cons ((digit?_eq_some_iff below).1 read) denote,
        same.trans (joined digit digits)⟩
    · rintro ⟨_, denote, same⟩
      cases denote with
      | cons first others =>
        refine ⟨_, (digit?_eq_some_iff below).2 first, (ih _).2 ⟨_, others, ?_⟩⟩
        exact same.trans (joined _ _).symm

theorem spells_iff (below : base ≤ 16) :
    Spells base chars value ↔ chars ≠ [] ∧ digits? base 0 chars = some value := by
  rw [digits?_eq_some_iff below]
  have leading (digits : List Nat) :
      Nat.ofDigits base (digits.reverse ++ [0]) = Nat.ofDigits base digits.reverse := by
    rw [Nat.ofDigits_append, Nat.ofDigits_singleton, Nat.mul_zero, Nat.add_zero]
  have lengths {digits : List Nat} (denote : List.Forall₂ (Denotes base) chars digits) :
      digits ≠ [] ↔ chars ≠ [] := by
    rw [← List.length_pos_iff, ← List.length_pos_iff, denote.length_eq]
  constructor
  · rintro ⟨digits, nonempty, denote, same⟩
    exact ⟨(lengths denote).1 nonempty, digits, denote, same.trans (leading digits).symm⟩
  · rintro ⟨nonempty, digits, denote, same⟩
    exact ⟨digits, (lengths denote).2 nonempty, denote, same.trans (leading digits)⟩

theorem not_spells_plus (rest : List Char) : ¬ Spells base ('+' :: rest) value := by
  rintro ⟨_, -, denote, -⟩
  cases denote with
  | cons first others =>
    obtain ⟨-, written | written⟩ := first
    · exact absurd (List.mem_of_getElem? written) (by decide +kernel)
    · exact absurd (List.mem_of_getElem? written) (by decide +kernel)

theorem unsigned?_of_ne_plus (rest : List Char) (unsigned : c ≠ '+') :
    unsigned? base (c :: rest) = digits? base 0 (c :: rest) := by
  unfold unsigned?
  split
  next none => cases none
  next same => exact absurd (List.cons.inj same).1 unsigned
  next same => exact absurd (List.cons.inj same).1 unsigned
  next same => rw [same]

theorem unsigned?_eq_some_iff (below : base ≤ 16) :
    unsigned? base chars = some value ↔
      ∃ digits, (chars = digits ∨ chars = '+' :: digits) ∧ Spells base digits value := by
  cases chars with
  | nil =>
    constructor
    · nofun
    · rintro ⟨_, rfl | none, spells⟩
      · exact absurd rfl ((spells_iff below).1 spells).1
      · cases none
  | cons c rest =>
    by_cases plus : c = '+'
    · subst plus
      have signed : unsigned? base ('+' :: rest) = some value ↔ Spells base rest value := by
        rw [spells_iff below]
        cases rest with
        | nil => simp [unsigned?]
        | cons first others => simp [unsigned?]
      rw [signed]
      constructor
      · intro spells
        exact ⟨rest, .inr rfl, spells⟩
      · rintro ⟨_, rfl | same, spells⟩
        · exact absurd spells (not_spells_plus rest)
        · cases same
          exact spells
    · rw [unsigned?_of_ne_plus rest plus]
      constructor
      · intro read
        exact ⟨c :: rest, .inl rfl, (spells_iff below).2 ⟨List.cons_ne_nil c rest, read⟩⟩
      · rintro ⟨_, rfl | same, spells⟩
        · exact ((spells_iff below).1 spells).2
        · exact absurd (List.cons.inj same).1 plus

end Digits

section Prefix

theorem hexBody?_eq_some_iff :
    hexBody? text = some body ↔ ∃ mark, (mark = 'x' ∨ mark = 'X') ∧ text = '0' :: mark :: body := by
  constructor
  · intro found
    unfold hexBody? at found
    split at found
    next rest =>
      cases found
      exact ⟨'x', .inl rfl, rfl⟩
    next rest =>
      cases found
      exact ⟨'X', .inr rfl, rfl⟩
    next => cases found
  · rintro ⟨_, rfl | rfl, rfl⟩
    · rfl
    · rfl

theorem hexPrefixed_iff :
    HexPrefixed text ↔ ∃ mark body, (mark = 'x' ∨ mark = 'X') ∧ text = '0' :: mark :: body := by
  constructor
  · rintro (⟨body, rfl⟩ | ⟨body, rfl⟩)
    · exact ⟨'x', body, .inl rfl, rfl⟩
    · exact ⟨'X', body, .inr rfl, rfl⟩
  · rintro ⟨_, body, rfl | rfl, rfl⟩
    · exact .inl ⟨body, rfl⟩
    · exact .inr ⟨body, rfl⟩

theorem hexBody?_isNone_iff : (hexBody? text).isNone = true ↔ ¬ HexPrefixed text := by
  rw [Option.isNone_iff_eq_none, ← not_iff_not, not_not, ← ne_eq, Option.ne_none_iff_exists',
    hexPrefixed_iff, exists_comm]
  simp only [hexBody?_eq_some_iff]

def basis (text : List Char) : Nat × List Char :=
  match hexBody? text with
  | some body => (16, body)
  | none => (10, text)

theorem basis_eq_iff : basis text = (base, body) ↔ Based text base body := by
  rw [basis]
  cases found : hexBody? text with
  | some rest =>
    obtain ⟨mark, marks, rfl⟩ := hexBody?_eq_some_iff.1 found
    constructor
    · rintro ⟨rfl, rfl⟩
      exact .hexadecimal mark _ marks
    · intro based
      cases based with
      | hexadecimal => rfl
      | decimal _ plain => exact absurd (hexPrefixed_iff.2 ⟨mark, rest, marks, rfl⟩) plain
  | none =>
    have plain := hexBody?_isNone_iff.1 (Option.isNone_iff_eq_none.2 found)
    constructor
    · rintro ⟨rfl, rfl⟩
      exact .decimal text plain
    · intro based
      cases based with
      | hexadecimal mark _ marks => exact absurd (hexPrefixed_iff.2 ⟨mark, _, marks, rfl⟩) plain
      | decimal => rfl

theorem Based.base_le (based : Based text base body) : base ≤ 16 := by
  cases based with
  | hexadecimal => exact Nat.le_refl 16
  | decimal => decide

def numeral? (text : List Char) : Option Nat :=
  unsigned? (basis text).1 ((basis text).2.filter (· ≠ '_'))

theorem isNumber_iff : IsNumber text value ↔ numeral? text = some value := by
  constructor
  · rintro ⟨base, body, digits, based, signed, spells⟩
    rw [numeral?, basis_eq_iff.2 based]
    exact (unsigned?_eq_some_iff based.base_le).2 ⟨digits, signed, spells⟩
  · intro read
    have based : Based text (basis text).1 (basis text).2 := basis_eq_iff.1 rfl
    obtain ⟨digits, signed, spells⟩ := (unsigned?_eq_some_iff based.base_le).1 read
    exact ⟨_, _, digits, based, signed, spells⟩

theorem IsNumber.unique {other : Nat} (first : IsNumber text value) (second : IsNumber text other) :
    value = other := by
  rw [isNumber_iff] at first second
  exact Option.some.inj (first.symm.trans second)

theorem number?_eq (text : List Char) : number? text = (numeral? text).filter (· < UInt32.size) := by
  rw [number?, numeral?, basis]
  cases hexBody? text with
  | some body => rfl
  | none => rfl

theorem number?_eq_some_iff : number? text = some value ↔ IsWord text value := by
  rw [number?_eq, Option.filter_eq_some_iff, decide_eq_true_eq, ← isNumber_iff]
  rfl

theorem parseNumber_eq_ok_iff (text : String) :
    parseNumber text = .ok value ↔ IsWord text.toList value := by
  rw [← number?_eq_some_iff, parseNumber]
  cases number? text.toList with
  | none => simp
  | some found => simp

theorem parseNumber_eq_error_iff (text : String) (error : QuantityError) :
    parseNumber text = .error error ↔
      error = .invalidNumber text ∧ ∀ value, ¬ IsWord text.toList value := by
  have none_iff : number? text.toList = none ↔ ∀ value, ¬ IsWord text.toList value := by
    simp only [← number?_eq_some_iff, Option.eq_none_iff_forall_ne_some, ne_eq]
  rw [← none_iff, parseNumber]
  cases number? text.toList with
  | none => simp [eq_comm]
  | some found => simp

end Prefix

section Writing

theorem isDigit_of_mem (plain : text.filter (· ≠ '_') = (toString value).toList)
    (member : c ∈ text) : c = '_' ∨ (digit? 10 c).isSome = true := by
  by_cases underscore : c = '_'
  · exact .inl underscore
  · right
    have inside : c ∈ (toString value).toList := by
      rw [← plain]
      exact List.mem_filter.2 ⟨member, decide_eq_true underscore⟩
    exact digit?_isSome_of_mem (Option.isSome_of_eq_some (Text.digits?_toString value)) inside

theorem not_hexPrefixed (plain : text.filter (· ≠ '_') = (toString value).toList) :
    ¬ HexPrefixed text := by
  rw [hexPrefixed_iff]
  rintro ⟨mark, body, marks, rfl⟩
  have member : mark ∈ '0' :: mark :: body := List.mem_cons_of_mem _ List.mem_cons_self
  have decimal := isDigit_of_mem plain member
  rcases marks with rfl | rfl
  · exact absurd decimal (by decide)
  · exact absurd decimal (by decide)

theorem isNumber_of_writes (writes : Writes value text) : IsNumber text value := by
  cases writes with
  | decimal _ plain =>
    have nonempty : (toString value).toList ≠ [] := by
      change value.repr.toList ≠ []
      rw [Nat.toList_repr]
      exact Nat.toDigits_ne_nil
    exact ⟨10, text, _, .decimal text (not_hexPrefixed plain), .inl plain,
      (spells_iff (by decide)).2 ⟨nonempty, Text.digits?_toString value⟩⟩
  | hexadecimal body plain =>
    have read : digits? 16 0 (Text.hexDigits value).toList = some value :=
      Text.digits?_paddedDigits (by decide) (by decide) 1 value
    have nonempty : (Text.hexDigits value).toList ≠ [] := by
      rw [Text.hexDigits, Text.paddedDigits, String.toList_ofList, List.leftpad]
      exact List.append_ne_nil_of_right_ne_nil _ Nat.toDigits_ne_nil
    exact ⟨16, body, _, .hexadecimal 'x' body (.inl rfl), .inl plain,
      (spells_iff (by decide)).2 ⟨nonempty, read⟩⟩

end Writing

end RiscBoard.Quantity
