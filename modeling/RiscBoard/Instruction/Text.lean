import RiscBoard.Instruction.Basic
import RiscBoard.Text.Number

/-!
The assembler text of instructions: a mnemonic, and after a blank the operands with commas between
them.
-/

namespace RiscBoard

/-- The written form of a memory operand, such as `[sp-0x4]`; a scale follows a star and a shift a
colon. -/
def Address.text (address : Address) : String :=
  let sign := if address.subtract then "-" else "+"
  let offset :=
    match address.offset with
    | .scaled index scale => Register.name index ++ "*" ++ Text.hex scale.toNat
    | .shifted index shift => Register.name index ++ ":" ++ Text.hex shift.toNat
    | .fixed immediate => Text.hex immediate.toNat
  "[" ++ Register.name address.base ++ sign ++ offset ++ "]"

namespace Instruction

def distanceText (distance : Int32) : String :=
  (if distance.toInt < 0 then "-" else "+") ++ Text.hex distance.toInt.natAbs

def copNumberText (number : Nat) : String :=
  "$" ++ toString number

def noOperation : Instruction := .aluRegister .add .zero .zero .zero

def mnemonic (instruction : Instruction) : String :=
  if instruction = noOperation then "nop"
  else
    match instruction with
    | .aluRegister op _ _ _ => op.mnemonic
    | .aluImmediate op _ _ => op.mnemonic
    | .branch condition link _ _ _ => (if link then "bl" else "b") ++ condition.name
    | .branchRegister condition link relative _ _ _ =>
      (if link then "blr" else "br") ++ condition.name ++ (if relative then ".r" else "")
    | .moveToCop .. => "mtcr"
    | .moveFromCop .. => "mfcr"
    | .syscall _ => "syscall"
    | .trapLevel level => "tpl" ++ toString level.index.val
    | .debug _ => "debug"
    | .softwareException _ => "excep"
    | .load size _ _ => "load." ++ size.letter
    | .store size _ _ => "store." ++ size.letter
    | .loadAddress .. => "lea"
    | .loadImmediate .. => "li"
    | .setIf condition _ _ _ => "s" ++ condition.name
    | .coprocessor _ => "cop"

def operands (instruction : Instruction) : List String :=
  if instruction = noOperation then []
  else
    match instruction with
    | .aluRegister _ dest left right =>
      [Register.name dest, Register.name left, Register.name right]
    | .aluImmediate _ dest immediate => [Register.name dest, Text.hex immediate.toNat]
    | .branch _ _ left right distance =>
      [Register.name left, Register.name right, distanceText distance]
    | .branchRegister _ _ _ left right target =>
      [Register.name left, Register.name right, Register.name target]
    | .moveToCop source cop cell =>
      [Register.name source, copNumberText cop.toNat, copNumberText cell.toNat]
    | .moveFromCop dest cop cell =>
      [copNumberText cop.toNat, copNumberText cell.toNat, Register.name dest]
    | .syscall immediate => [Text.hex immediate.toNat]
    | .trapLevel _ => []
    | .debug immediate => [Text.hex immediate.toNat]
    | .softwareException immediate => [Text.hex immediate.toNat]
    | .load _ dest address => [Register.name dest, address.text]
    | .store _ source address => [address.text, Register.name source]
    | .loadAddress dest address => [Register.name dest, address.text]
    | .loadImmediate dest immediate shift =>
      [Register.name dest, Text.hexWord (immediate <<< shift).toNat]
    | .setIf _ dest source immediate =>
      [Register.name dest, Register.name source, Text.hex immediate.toNat]
    | .coprocessor word => [Text.hexWord word.toNat]

def text (instruction : Instruction) : String :=
  match instruction.operands with
  | [] => instruction.mnemonic
  | operands => instruction.mnemonic ++ " " ++ ", ".intercalate operands

end Instruction

end RiscBoard
