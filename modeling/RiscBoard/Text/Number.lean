/-!
Written forms of numbers. Hexadecimal digits are lower case; a padded form has at least the given
number of digits, filled with zeros on the left.
-/

namespace RiscBoard.Text

/-- The digits of `value` in `base`, at least `width` of them. -/
def paddedDigits (base width value : Nat) : String :=
  String.ofList (List.leftpad width '0' (Nat.toDigits base value))

def hexDigits (value : Nat) : String :=
  paddedDigits 16 1 value

def hex (value : Nat) : String :=
  "0x" ++ hexDigits value

def hexWord (value : Nat) : String :=
  "0x" ++ paddedDigits 16 8 value

def binaryFive (value : Nat) : String :=
  "0b" ++ paddedDigits 2 5 value

end RiscBoard.Text
