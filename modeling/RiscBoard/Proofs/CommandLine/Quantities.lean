import RiscBoard.Proofs.CommandLine.Numbers

/-!
Numbers with a suffix. A text without a hexadecimal prefix whose last character is a letter of ASCII
has to end in a known suffix, and then the number is what stands before it; any other text is a number
as it is. A text stands for the exact product of its number and its factor, which is accepted below a
limit (`quantities_read_exactly`).

Numbers are read as 32-bit words also where the product has 64 bits. So a frequency from 2^32 on can be
written with a suffix only (`frequency_read_back`).
-/

namespace RiscBoard.Quantity

def IsLetter (c : Char) : Prop := ('A' ≤ c ∧ c ≤ 'Z') ∨ ('a' ≤ c ∧ c ≤ 'z')

def suffixes : List (Char × Nat) := [('k', 1), ('K', 1), ('m', 2), ('M', 2), ('g', 3), ('G', 3)]

def Unsuffixed (text : List Char) : Prop :=
  HexPrefixed text ∨ ∀ last ∈ text.getLast?, ¬ IsLetter last

inductive Parts : List Char → List Char → Nat → Prop
  | whole (text : List Char) (unsuffixed : Unsuffixed text) : Parts text text 0
  | suffixed (digits : List Char) (suffix : Char) (exponent : Nat)
      (plain : ¬ HexPrefixed (digits ++ [suffix])) (known : (suffix, exponent) ∈ suffixes) :
      Parts (digits ++ [suffix]) digits exponent

/-- The letter at the end of a text has the place of a suffix and is none. -/
structure Misfit (text : List Char) (letter : Char) : Prop where
  plain : ¬ HexPrefixed text
  last : text.getLast? = some letter
  isLetter : IsLetter letter
  unknown : ∀ exponent, (letter, exponent) ∉ suffixes

/-- The exact product of a number, which is a word, and its factor. -/
def StandsFor (factor : Nat) (text : List Char) (product : Nat) : Prop :=
  ∃ digits exponent value, Parts text digits exponent ∧ IsWord digits value ∧
    product = value * factor ^ exponent

structure ReadsScaled (factor limit : Nat) (text : String) (result : Except QuantityError Nat) :
    Prop where
  ok : ∀ product, result = .ok product ↔ StandsFor factor text.toList product ∧ product < limit
  tooLarge : ∀ shown, result = .error (.tooLarge shown) ↔
    shown = text ∧ ∃ product, StandsFor factor text.toList product ∧ limit ≤ product
  invalidNumber : ∀ shown, result = .error (.invalidNumber shown) ↔
    (∃ exponent, Parts text.toList shown.toList exponent) ∧ ∀ value, ¬ IsWord shown.toList value
  invalidSuffix : ∀ letter, result = .error (.invalidSuffix letter) ↔ Misfit text.toList letter

section Suffix

variable {text digits : List Char} {suffix letter : Char} {exponent : Nat}

theorem isAlpha_iff (c : Char) : c.isAlpha = true ↔ IsLetter c := by
  have upper : c.isUpper = true ↔ 'A' ≤ c ∧ c ≤ 'Z' := decide_eq_true_iff
  have lower : c.isLower = true ↔ 'a' ≤ c ∧ c ≤ 'z' :=
    Bool.and_eq_true_iff.trans (and_congr decide_eq_true_iff decide_eq_true_iff)
  exact Bool.or_eq_true_iff.trans (or_congr upper lower)

theorem exponent?_eq_some_iff : exponent? suffix = some exponent ↔ (suffix, exponent) ∈ suffixes := by
  constructor
  · intro known
    unfold exponent? at known
    split at known <;> cases known <;> decide
  · intro member
    have table : ∀ entry ∈ suffixes, exponent? entry.1 = some entry.2 := by decide
    exact table _ member

theorem isLetter_of_mem (member : (suffix, exponent) ∈ suffixes) : IsLetter suffix := by
  have table : ∀ entry ∈ suffixes, entry.1.isAlpha = true := by decide
  exact (isAlpha_iff suffix).1 (table _ member)

theorem exponent_le_of_mem (member : (suffix, exponent) ∈ suffixes) : exponent ≤ 3 := by
  have table : ∀ entry ∈ suffixes, entry.2 ≤ 3 := by decide
  exact table _ member

end Suffix

section Splitting

variable {text digits : String} {suffix letter : Char} {exponent : Nat}

theorem splitSuffix_of_unsuffixed (unsuffixed : Unsuffixed text.toList) :
    splitSuffix text = .ok (text, 0) := by
  unfold splitSuffix
  split
  next last found =>
    have unmarked : ¬ (last.isAlpha && (hexBody? text.toList).isNone) = true := by
      rw [Bool.and_eq_true, isAlpha_iff, hexBody?_isNone_iff]
      rintro ⟨letter, plain⟩
      exact unsuffixed.elim plain fun noLetter => noLetter last found letter
    rw [if_neg unmarked]
  next => rfl

theorem splitSuffix_of_letter (plain : ¬ HexPrefixed text.toList)
    (last : text.toList.getLast? = some letter) (isLetter : IsLetter letter) :
    splitSuffix text = match exponent? letter with
      | some exponent => .ok (String.ofList text.toList.dropLast, exponent)
      | none => .error (.invalidSuffix letter) := by
  have marked : (letter.isAlpha && (hexBody? text.toList).isNone) = true := by
    rw [Bool.and_eq_true, isAlpha_iff, hexBody?_isNone_iff]
    exact ⟨isLetter, plain⟩
  rw [splitSuffix, last]
  exact if_pos marked

theorem unsuffixed_or_letter (text : List Char) :
    Unsuffixed text ∨ ∃ letter, ¬ HexPrefixed text ∧ text.getLast? = some letter ∧
      IsLetter letter := by
  by_cases prefixed : HexPrefixed text
  · exact .inl (.inl prefixed)
  · by_cases ends : ∃ letter, text.getLast? = some letter ∧ IsLetter letter
    · obtain ⟨letter, last, isLetter⟩ := ends
      exact .inr ⟨letter, prefixed, last, isLetter⟩
    · exact .inl (.inr fun last found isLetter => ends ⟨last, found, isLetter⟩)

theorem splitSuffix_of_parts (parts : Parts text.toList digits.toList exponent) :
    splitSuffix text = .ok (digits, exponent) := by
  generalize chars : text.toList = whole at parts
  generalize number : digits.toList = front at parts
  cases parts with
  | whole _ unsuffixed =>
    rw [← chars] at unsuffixed
    rw [splitSuffix_of_unsuffixed unsuffixed, String.toList_inj.1 (number.trans chars.symm)]
  | suffixed _ suffix _ plain known =>
    have last : text.toList.getLast? = some suffix := by rw [chars, List.getLast?_concat]
    rw [← chars] at plain
    rw [splitSuffix_of_letter plain last (isLetter_of_mem known), exponent?_eq_some_iff.2 known,
      chars, List.dropLast_concat, ← number, String.ofList_toList]

theorem splitSuffix_of_misfit (misfit : Misfit text.toList letter) :
    splitSuffix text = .error (.invalidSuffix letter) := by
  have unknown : exponent? letter = none := by
    rw [Option.eq_none_iff_forall_ne_some]
    intro exponent known
    exact misfit.unknown exponent (exponent?_eq_some_iff.1 known)
  rw [splitSuffix_of_letter misfit.plain misfit.last misfit.isLetter, unknown]

theorem parts_or_misfit (text : String) :
    (∃ digits exponent, Parts text.toList (String.toList digits) exponent) ∨
      ∃ letter, Misfit text.toList letter := by
  rcases unsuffixed_or_letter text.toList with unsuffixed | ⟨letter, plain, last, isLetter⟩
  · exact .inl ⟨text, 0, .whole _ unsuffixed⟩
  · by_cases known : ∃ exponent, (letter, exponent) ∈ suffixes
    · obtain ⟨exponent, known⟩ := known
      obtain ⟨digits, same⟩ := List.getLast?_eq_some_iff.1 last
      rw [same] at plain ⊢
      refine .inl ⟨String.ofList digits, exponent, ?_⟩
      rw [String.toList_ofList]
      exact .suffixed digits letter exponent plain known
    · exact .inr ⟨letter, plain, last, isLetter, not_exists.1 known⟩

theorem splitSuffix_eq_ok_iff :
    splitSuffix text = .ok (digits, exponent) ↔ Parts text.toList digits.toList exponent := by
  constructor
  · intro accepted
    rcases parts_or_misfit text with ⟨front, power, parts⟩ | ⟨letter, misfit⟩
    · have same := (splitSuffix_of_parts parts).symm.trans accepted
      cases same
      exact parts
    · cases (splitSuffix_of_misfit misfit).symm.trans accepted
  · exact splitSuffix_of_parts

theorem splitSuffix_eq_error_iff (error : QuantityError) :
    splitSuffix text = .error error ↔
      ∃ letter, error = .invalidSuffix letter ∧ Misfit text.toList letter := by
  constructor
  · intro refused
    rcases parts_or_misfit text with ⟨front, power, parts⟩ | ⟨letter, misfit⟩
    · cases (splitSuffix_of_parts parts).symm.trans refused
    · cases (splitSuffix_of_misfit misfit).symm.trans refused
      exact ⟨letter, rfl, misfit⟩
  · rintro ⟨letter, rfl, misfit⟩
    exact splitSuffix_of_misfit misfit

/-- The number before a suffix is the text without its last byte, so that byte is a character. -/
theorem toByteArray_of_parts (parts : Parts text.toList digits.toList exponent) :
    (digits = text ∧ exponent = 0) ∨
      digits.toByteArray = text.toByteArray.extract 0 (text.utf8ByteSize - 1) := by
  generalize chars : text.toList = whole at parts
  generalize number : digits.toList = front at parts
  cases parts with
  | whole _ unsuffixed => exact .inl ⟨String.toList_inj.1 (number.trans chars.symm), rfl⟩
  | suffixed _ suffix _ plain known =>
    right
    have single : (String.singleton suffix).utf8ByteSize = 1 := by
      have table : ∀ entry ∈ suffixes, (String.singleton entry.1).utf8ByteSize = 1 := by
        decide +kernel
      exact table (suffix, exponent) known
    have same : text = digits ++ String.singleton suffix := by
      rw [← String.toList_inj, chars, String.toList_append, number, String.toList_singleton]
    rw [same, String.utf8ByteSize_append, single, Nat.add_sub_cancel, String.toByteArray_append,
      ← String.size_toByteArray, ByteArray.extract_append_eq_left rfl]

end Splitting

section Scaling

variable {factor limit product : Nat} {text : String}

theorem bind_eq_ok_iff {ε α β : Type} (first : Except ε α) (next : α → Except ε β) (result : β) :
    first >>= next = .ok result ↔ ∃ value, first = .ok value ∧ next value = .ok result := by
  cases first with
  | ok value => simp [bind, Except.bind]
  | error error => simp [bind, Except.bind]

theorem bind_eq_error_iff {ε α β : Type} (first : Except ε α) (next : α → Except ε β) (error : ε) :
    first >>= next = .error error ↔
      first = .error error ∨ ∃ value, first = .ok value ∧ next value = .error error := by
  cases first with
  | ok value => simp [bind, Except.bind]
  | error error => simp [bind, Except.bind]

theorem standsFor_iff : StandsFor factor text.toList product ↔
    ∃ (digits : String) (exponent value : Nat), splitSuffix text = .ok (digits, exponent) ∧
      parseNumber digits = .ok value ∧ product = value * factor ^ exponent := by
  simp only [splitSuffix_eq_ok_iff, parseNumber_eq_ok_iff]
  constructor
  · rintro ⟨digits, exponent, value, parts, isWord, same⟩
    refine ⟨String.ofList digits, exponent, value, ?_⟩
    rw [String.toList_ofList]
    exact ⟨parts, isWord, same⟩
  · rintro ⟨digits, rest⟩
    exact ⟨digits.toList, rest⟩

/-- The checks of a scaled number in their order. -/
theorem parseScaled_eq (factor limit : Nat) (text : String) :
    parseScaled factor limit text = splitSuffix text >>= fun parts =>
      parseNumber parts.1 >>= fun value =>
        if value * factor ^ parts.2 < limit then .ok (value * factor ^ parts.2)
        else .error (.tooLarge text) :=
  rfl

theorem parseScaled_eq_ok_iff : parseScaled factor limit text = .ok product ↔
    StandsFor factor text.toList product ∧ product < limit := by
  rw [standsFor_iff, parseScaled_eq, bind_eq_ok_iff]
  simp only [bind_eq_ok_iff]
  constructor
  · rintro ⟨⟨digits, exponent⟩, split, value, read, fits⟩
    split at fits
    next below =>
      cases fits
      exact ⟨⟨digits, exponent, value, split, read, rfl⟩, below⟩
    next => cases fits
  · rintro ⟨⟨digits, exponent, value, split, read, rfl⟩, below⟩
    exact ⟨(digits, exponent), split, value, read, if_pos below⟩

theorem parseScaled_eq_error_iff (error : QuantityError) :
    parseScaled factor limit text = .error error ↔
      (∃ letter, error = .invalidSuffix letter ∧ Misfit text.toList letter) ∨
      (∃ (digits : String) (exponent : Nat), Parts text.toList digits.toList exponent ∧
        error = .invalidNumber digits ∧ ∀ value, ¬ IsWord digits.toList value) ∨
      (error = .tooLarge text ∧ ∃ product, StandsFor factor text.toList product ∧
        limit ≤ product) := by
  rw [parseScaled_eq, bind_eq_error_iff, splitSuffix_eq_error_iff]
  simp only [bind_eq_error_iff, standsFor_iff]
  apply or_congr_right
  constructor
  · rintro ⟨⟨digits, exponent⟩, split, refused | ⟨value, read, refused⟩⟩
    · exact .inl ⟨digits, exponent, splitSuffix_eq_ok_iff.1 split,
        (parseNumber_eq_error_iff digits error).1 refused⟩
    · split at refused
      next => cases refused
      next above =>
        cases refused
        exact .inr ⟨rfl, _, ⟨digits, exponent, value, split, read, rfl⟩, Nat.le_of_not_lt above⟩
  · rintro (⟨digits, exponent, parts, refused⟩ |
      ⟨rfl, _, ⟨digits, exponent, value, split, read, rfl⟩, above⟩)
    · exact ⟨(digits, exponent), splitSuffix_of_parts parts,
        .inl ((parseNumber_eq_error_iff digits error).2 refused)⟩
    · exact ⟨(digits, exponent), split, .inr ⟨value, read, if_neg (Nat.not_lt_of_le above)⟩⟩

theorem parseScaled_reads (factor limit : Nat) (text : String) :
    ReadsScaled factor limit text (parseScaled factor limit text) where
  ok _ := parseScaled_eq_ok_iff
  tooLarge shown := by simp [parseScaled_eq_error_iff]
  invalidNumber shown := by
    rw [parseScaled_eq_error_iff]
    constructor
    · rintro (⟨_, none, -⟩ | ⟨digits, exponent, parts, same, noWord⟩ | ⟨none, -⟩)
      · cases none
      · cases same
        exact ⟨⟨exponent, parts⟩, noWord⟩
      · cases none
    · rintro ⟨⟨exponent, parts⟩, noWord⟩
      exact .inr (.inl ⟨shown, exponent, parts, rfl, noWord⟩)
  invalidSuffix letter := by simp [parseScaled_eq_error_iff]

theorem Parts.exponent_le {text digits : List Char} {exponent : Nat}
    (parts : Parts text digits exponent) : exponent ≤ 3 := by
  cases parts with
  | whole => exact Nat.zero_le 3
  | suffixed _ suffix _ _ known => exact exponent_le_of_mem known

theorem StandsFor.le (positive : 0 < factor) {text : List Char}
    (stands : StandsFor factor text product) : product ≤ (UInt32.size - 1) * factor ^ 3 := by
  obtain ⟨digits, exponent, value, parts, ⟨-, word⟩, rfl⟩ := stands
  exact Nat.mul_le_mul (Nat.le_sub_one_of_lt word)
    (Nat.pow_le_pow_right positive parts.exponent_le)

theorem toNat_scaled (member : factor ∈ [1000, 1024]) {text digits : List Char}
    {exponent value : Nat} (parts : Parts text digits exponent) (word : IsWord digits value) :
    (UInt64.ofNat value * UInt64.ofNat factor ^ exponent).toNat = value * factor ^ exponent := by
  have table : ∀ factor ∈ [1000, 1024], 0 < factor ∧ (UInt32.size - 1) * factor ^ 3 < UInt64.size ∧
      ∀ exponent ≤ 3, (UInt64.ofNat factor ^ exponent).toNat = factor ^ exponent := by
    decide
  obtain ⟨positive, room, powers⟩ := table factor member
  have stands : StandsFor factor text (value * factor ^ exponent) :=
    ⟨digits, exponent, value, parts, word, rfl⟩
  have small : value < UInt64.size := Nat.lt_trans word.2 (by decide)
  rw [UInt64.toNat_mul, UInt64.toNat_ofNat_of_lt' small, powers exponent parts.exponent_le]
  exact Nat.mod_eq_of_lt (Nat.lt_of_le_of_lt (stands.le positive) room)

end Scaling

section Writing

variable {factor limit value : Nat} {text : String}

theorem not_isLetter_of_digit? {c : Char} (decimal : (digit? 10 c).isSome = true) :
    ¬ IsLetter c := by
  have table : ∀ code < 128, (digit? 10 (Char.ofNat code)).isSome = true →
      (Char.ofNat code).isAlpha = false := by
    decide +kernel
  obtain ⟨digit, read⟩ := Option.isSome_iff_exists.1 decimal
  have entry := table c.toNat (toNat_lt_of_digit? read)
  rw [Char.ofNat_toNat] at entry
  rw [← isAlpha_iff, entry decimal]
  exact Bool.false_ne_true

/-- A number without a suffix is not taken for one with a suffix. -/
theorem unsuffixed_of_writes {chars : List Char} (writes : Writes value chars) :
    Unsuffixed chars := by
  cases writes with
  | decimal _ plain =>
    right
    intro last found
    rcases isDigit_of_mem plain (List.mem_of_getLast? found) with rfl | decimal
    · rw [← isAlpha_iff]
      decide
    · exact not_isLetter_of_digit? decimal
  | hexadecimal body plain => exact .inl (.inl ⟨body, rfl⟩)

theorem parseNumber_of_writes (writes : Writes value text.toList) (word : value < UInt32.size) :
    parseNumber text = .ok value :=
  (parseNumber_eq_ok_iff text).2 ⟨isNumber_of_writes writes, word⟩

theorem parseScaled_of_writes (writes : Writes value text.toList) (word : value < UInt32.size)
    (room : UInt32.size ≤ limit) : parseScaled factor limit text = .ok value := by
  rw [parseScaled_eq_ok_iff]
  constructor
  · have parts : Parts text.toList text.toList 0 := .whole _ (unsuffixed_of_writes writes)
    exact ⟨text.toList, 0, value, parts, ⟨isNumber_of_writes writes, word⟩, (Nat.mul_one value).symm⟩
  · exact Nat.lt_of_lt_of_le word room

theorem parseScaled_of_writes_large (writes : Writes value text.toList)
    (large : UInt32.size ≤ value) :
    parseScaled factor limit text = .error (.invalidNumber text) := by
  rw [(parseScaled_reads factor limit text).invalidNumber]
  constructor
  · exact ⟨0, .whole _ (unsuffixed_of_writes writes)⟩
  · rintro other ⟨isNumber, word⟩
    rw [isNumber.unique (isNumber_of_writes writes)] at word
    exact absurd word (Nat.not_lt_of_le large)

theorem writes_toString (value : Nat) : Writes value (toString value).toList := by
  apply Writes.decimal
  rw [List.filter_eq_self]
  intro c member
  apply decide_eq_true
  rintro rfl
  exact (Text.plain_toString value).not_mem (by decide) member

end Writing

/-- Numbers and sizes are read as their language says, with exact values: no product is cut off, and no
character is. Every way to write a 32-bit word is read back as it, with or without suffixes. -/
theorem quantities_read_exactly (text : String) :
    (∀ value, parseNumber text = .ok value ↔ IsWord text.toList value) ∧
    (∀ error, parseNumber text = .error error ↔
      error = .invalidNumber text ∧ ∀ value, ¬ IsWord text.toList value) ∧
    ReadsScaled 1024 UInt32.size text (parseSize text) ∧
    (∀ factor ∈ [1000, 1024], ∀ digits exponent value, Parts text.toList digits exponent →
      IsWord digits value →
      (UInt64.ofNat value * UInt64.ofNat factor ^ exponent).toNat = value * factor ^ exponent) ∧
    (∀ digits exponent, splitSuffix text = .ok (digits, exponent) → (digits = text ∧ exponent = 0) ∨
      digits.toByteArray = text.toByteArray.extract 0 (text.utf8ByteSize - 1)) ∧
    (∀ value < UInt32.size, Writes value text.toList →
      parseNumber text = .ok value ∧ parseSize text = .ok value ∧ parseFrequency text = .ok value) := by
  refine ⟨fun value => parseNumber_eq_ok_iff text, parseNumber_eq_error_iff text,
    parseScaled_reads 1024 UInt32.size text, ?_, ?_, ?_⟩
  · intro factor member digits exponent value parts word
    exact toNat_scaled member parts word
  · intro digits exponent split
    exact toByteArray_of_parts (splitSuffix_eq_ok_iff.1 split)
  · intro value word writes
    exact ⟨parseNumber_of_writes writes word, parseScaled_of_writes writes word (by decide),
      parseScaled_of_writes writes word (by decide)⟩

/-- A hexadecimal number among underscores, and the least size with a suffix that is no word. -/
theorem underscored_read_exactly :
    Writes 0x4d "0x_4_d".toList ∧ parseSize "0x_4_d" = .ok 0x4d ∧
      Parts "+4194_304k".toList "+4194_304".toList 1 ∧ IsWord "+4194_304".toList 4194304 ∧
      (UInt64.ofNat 4194304 * UInt64.ofNat 1024 ^ (1 : Nat)).toNat = 4194304 * 1024 ^ 1 ∧
      parseSize "+4194_304k" = .error (.tooLarge "+4194_304k") := by
  have writes : Writes 0x4d "0x_4_d".toList := .hexadecimal "_4_d".toList (by decide +kernel)
  have split : splitSuffix "+4194_304k" = .ok ("+4194_304", 1) := by decide +kernel
  have parts := splitSuffix_eq_ok_iff.1 split
  have word : IsWord "+4194_304".toList 4194304 := number?_eq_some_iff.1 (by decide +kernel)
  obtain ⟨-, -, -, -, -, readBack⟩ := quantities_read_exactly "0x_4_d"
  obtain ⟨-, -, reads, exact, -, -⟩ := quantities_read_exactly "+4194_304k"
  refine ⟨writes, (readBack _ (by decide) writes).2.1, parts, word,
    exact 1024 (by decide) _ _ _ parts word, ?_⟩
  rw [reads.tooLarge]
  exact ⟨rfl, _, ⟨_, _, _, parts, word, rfl⟩, Nat.le_refl _⟩

/-- A frequency in plain digits is read back exactly if it is a 32-bit word, and otherwise is no number,
although it is accepted with a suffix. A size always is read back. -/
theorem frequency_read_back {text : String} {frequency : Nat}
    (accepted : parseFrequency text = .ok frequency) :
    frequency < UInt64.size ∧
      (parseFrequency (toString frequency) = .ok frequency ↔ frequency < UInt32.size) ∧
      (UInt32.size ≤ frequency →
        parseFrequency (toString frequency) = .error (.invalidNumber (toString frequency))) ∧
      (∀ sizeText size, parseSize sizeText = .ok size → parseSize (toString size) = .ok size) := by
  have plain := writes_toString frequency
  have refused (large : UInt32.size ≤ frequency) :
      parseFrequency (toString frequency) = .error (.invalidNumber (toString frequency)) :=
    parseScaled_of_writes_large plain large
  refine ⟨(parseScaled_eq_ok_iff.1 accepted).2, ⟨?_, ?_⟩, refused, ?_⟩
  · intro read
    by_contra large
    cases (refused (Nat.le_of_not_lt large)).symm.trans read
  · intro word
    exact parseScaled_of_writes plain word (by decide)
  · intro sizeText size sized
    exact parseScaled_of_writes (writes_toString size) (parseScaled_eq_ok_iff.1 sized).2
      (Nat.le_refl _)

theorem megahertz_read_back :
    parseFrequency "4_294M" = .ok 4294000000 ∧ parseFrequency "4294000000" = .ok 4294000000 := by
  have accepted : parseFrequency "4_294M" = .ok 4294000000 := by decide +kernel
  exact ⟨accepted, (frequency_read_back accepted).2.1.2 (by decide)⟩

/-- Five gigahertz can be written with a suffix only. -/
theorem gigahertz_not_read_back :
    parseFrequency "5G" = .ok 5000000000 ∧
      parseFrequency "5000000000" = .error (.invalidNumber "5000000000") ∧
      ¬ ∀ text frequency, parseFrequency text = .ok frequency →
        parseFrequency (toString frequency) = .ok frequency := by
  have accepted : parseFrequency "5G" = .ok 5000000000 := by decide +kernel
  have refused : parseFrequency "5000000000" = .error (.invalidNumber "5000000000") := by
    decide +kernel
  refine ⟨accepted, refused, ?_⟩
  intro readBack
  cases refused.symm.trans (readBack _ _ accepted)

end RiscBoard.Quantity
