/-!
The sixteen operations of the arithmetic unit. Arithmetic wraps at 32 bits, shift and rotate
amounts are taken modulo 32, and division is unsigned and refuses a zero divisor.
-/

namespace RiscBoard

inductive AluOp where
  | add
  | sub
  | mul
  | mla
  | div
  | mod
  | and
  | or
  | xor
  | lsl
  | lsr
  | asr
  | sxb
  | sxs
  | rol
  | ror
  deriving DecidableEq

inductive ArithmeticError where
  | divisionByZero
  deriving DecidableEq

def ArithmeticError.message : ArithmeticError → String
  | .divisionByZero => "division by zero"

namespace AluOp

def table : Vector AluOp 16 :=
  #v[add, sub, mul, mla, div, mod, and, or, xor, lsl, lsr, asr, sxb, sxs, rol, ror]

def ofCode (code : Fin 16) : AluOp := table.get code

def ofNat? (code : Nat) : Option AluOp := table[code]?

def code : AluOp → Nat
  | add => 0
  | sub => 1
  | mul => 2
  | mla => 3
  | div => 4
  | mod => 5
  | and => 6
  | or => 7
  | xor => 8
  | lsl => 9
  | lsr => 10
  | asr => 11
  | sxb => 12
  | sxs => 13
  | rol => 14
  | ror => 15

@[simp] theorem ofNat?_code (op : AluOp) : ofNat? op.code = some op := by
  cases op <;> rfl

@[simp] theorem code_ofCode : ∀ code : Fin 16, (ofCode code).code = code.val := by decide

def mnemonic : AluOp → String
  | add => "add"
  | sub => "sub"
  | mul => "mul"
  | mla => "mla"
  | div => "div"
  | mod => "mod"
  | and => "and"
  | or => "or"
  | xor => "xor"
  | lsl => "lsl"
  | lsr => "lsr"
  | asr => "asr"
  | sxb => "sx.b"
  | sxs => "sx.s"
  | rol => "rol"
  | ror => "ror"

/-- The new value of the destination. Only `mla` looks at the destination's old value. -/
def apply (op : AluOp) (dest left right : UInt32) : Except ArithmeticError UInt32 :=
  match op with
  | add => .ok (left + right)
  | sub => .ok (left - right)
  | mul => .ok (left * right)
  | mla => .ok (dest + left * right)
  | div => if right = 0 then .error .divisionByZero else .ok (left / right)
  | mod => if right = 0 then .error .divisionByZero else .ok (left % right)
  | and => .ok (left &&& right)
  | or => .ok (left ||| right)
  | xor => .ok (left ^^^ right)
  | lsl => .ok (left <<< right)
  | lsr => .ok (left >>> right)
  | asr => .ok ⟨left.toBitVec.sshiftRight (right.toNat % 32)⟩
  | sxb => .ok left.toUInt8.toInt8.toInt32.toUInt32
  | sxs => .ok left.toUInt16.toInt16.toInt32.toUInt32
  | rol => .ok ⟨left.toBitVec.rotateLeft right.toNat⟩
  | ror => .ok ⟨left.toBitVec.rotateRight right.toNat⟩

end AluOp

end RiscBoard
