/-!
Numbers on the command line: decimal or hexadecimal, with underscores anywhere among the digits,
and for sizes and frequencies with a suffix for thousands, millions and so on.
-/

namespace RiscBoard

inductive QuantityError where
  | invalidNumber (text : String)
  | invalidSuffix (suffix : Char)
  | tooLarge (text : String)
  deriving DecidableEq

def QuantityError.message : QuantityError → String
  | invalidNumber text => "`" ++ text ++ "` is not a number"
  | invalidSuffix suffix => "unknown suffix `" ++ suffix.toString ++ "`"
  | tooLarge text => "`" ++ text ++ "` is too large"

namespace Quantity

def digit? (base : Nat) (c : Char) : Option Nat :=
  let value :=
    if '0' ≤ c ∧ c ≤ '9' then some (c.toNat - '0'.toNat)
    else if 'a' ≤ c ∧ c ≤ 'f' then some (c.toNat - 'a'.toNat + 10)
    else if 'A' ≤ c ∧ c ≤ 'F' then some (c.toNat - 'A'.toNat + 10)
    else none
  value.filter (· < base)

def digits? (base value : Nat) : List Char → Option Nat
  | [] => some value
  | c :: rest => (digit? base c).bind fun digit => digits? base (base * value + digit) rest

def unsigned? (base : Nat) : List Char → Option Nat
  | [] => none
  | '+' :: [] => none
  | '+' :: c :: rest => digits? base 0 (c :: rest)
  | c :: rest => digits? base 0 (c :: rest)

def hexBody? : List Char → Option (List Char)
  | '0' :: 'x' :: body => some body
  | '0' :: 'X' :: body => some body
  | _ => none

/-- The number of a text whose underscores count for nothing. -/
def number? (chars : List Char) : Option Nat :=
  let value :=
    match hexBody? chars with
    | some body => unsigned? 16 (body.filter (· ≠ '_'))
    | none => unsigned? 10 (chars.filter (· ≠ '_'))
  value.filter (· < UInt32.size)

def parseNumber (text : String) : Except QuantityError Nat :=
  match number? text.toList with
  | some value => .ok value
  | none => .error (.invalidNumber text)

def exponent? : Char → Option Nat
  | 'k' | 'K' => some 1
  | 'm' | 'M' => some 2
  | 'g' | 'G' => some 3
  | _ => none

/-- The digits of a text and the exponent of its suffix. A hexadecimal number has no suffix. -/
def splitSuffix (text : String) : Except QuantityError (String × Nat) :=
  match text.toList.getLast? with
  | some suffix =>
    if suffix.isAlpha && (hexBody? text.toList).isNone then
      match exponent? suffix with
      | some exponent => .ok (String.ofList text.toList.dropLast, exponent)
      | none => .error (.invalidSuffix suffix)
    else .ok (text, 0)
  | none => .ok (text, 0)

def parseScaled (factor limit : Nat) (text : String) : Except QuantityError Nat := do
  let (digits, exponent) ← splitSuffix text
  let value ← parseNumber digits
  let scaled := value * Nat.pow factor exponent
  if scaled < limit then .ok scaled else .error (.tooLarge text)

def parseSize (text : String) : Except QuantityError Nat := parseScaled 1024 UInt32.size text

def parseFrequency (text : String) : Except QuantityError Nat := parseScaled 1000 UInt64.size text

/-- A number of cycles: decimal, without underscores. -/
def parseCount? (text : String) : Option Nat :=
  (unsigned? 10 text.toList).filter (· < UInt64.size)

end Quantity

end RiscBoard
