/-!
The six comparisons that branches and set-if instructions test. All of them compare unsigned.
-/

namespace RiscBoard

inductive Condition where
  | eq
  | ne
  | gt
  | ge
  | lt
  | le
  deriving DecidableEq

namespace Condition

/-- The comparisons in the order of their codes; codes 6 and 7 are unassigned. -/
def table : Vector Condition 6 := #v[eq, ne, gt, ge, lt, le]

def ofNat? (code : Nat) : Option Condition := table[code]?

def code : Condition → Nat
  | eq => 0
  | ne => 1
  | gt => 2
  | ge => 3
  | lt => 4
  | le => 5

@[simp] theorem ofNat?_code (condition : Condition) :
    ofNat? condition.code = some condition := by
  cases condition <;> rfl

def test (condition : Condition) (left right : UInt32) : Bool :=
  match condition with
  | eq => left == right
  | ne => left != right
  | gt => left > right
  | ge => left ≥ right
  | lt => left < right
  | le => left ≤ right

def name : Condition → String
  | eq => "eq"
  | ne => "ne"
  | gt => "gt"
  | ge => "ge"
  | lt => "lt"
  | le => "le"

end Condition

end RiscBoard
