/-!
The four rings of execution. Level 0 is the most privileged, and raising a level moves one ring
toward it.
-/

namespace RiscBoard

/-- A ring of execution, the most privileged first. -/
inductive PrivilegeLevel where
  | level0
  | level1
  | level2
  | level3
  deriving DecidableEq

namespace PrivilegeLevel

def table : Vector PrivilegeLevel 4 := #v[level0, level1, level2, level3]

def ofIndex (index : Fin 4) : PrivilegeLevel := table.get index

def ofNat? (index : Nat) : Option PrivilegeLevel := table[index]?

def index : PrivilegeLevel → Fin 4
  | level0 => 0
  | level1 => 1
  | level2 => 2
  | level3 => 3

@[simp] theorem ofIndex_index (level : PrivilegeLevel) : ofIndex level.index = level := by
  cases level <;> rfl

@[simp] theorem index_ofIndex : ∀ index : Fin 4, (ofIndex index).index = index := by decide

/-- The next more privileged level; level 0 stays. -/
def raised : PrivilegeLevel → PrivilegeLevel
  | level0 => level0
  | level1 => level0
  | level2 => level1
  | level3 => level2

theorem index_raised (level : PrivilegeLevel) :
    level.raised.index.val = level.index.val - 1 := by
  cases level <;> rfl

def text (level : PrivilegeLevel) : String :=
  "PL" ++ toString level.index.val

end PrivilegeLevel

end RiscBoard
