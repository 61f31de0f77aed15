import RiscBoard.Instruction.Text
import RiscBoard.Proofs.Text.Numerals
import RiscBoard.Proofs.Text.Tokens

/-!
The written forms of single operands. The text of an operand determines it once its kind is known,
and no operand's text has a comma in it.
-/

namespace RiscBoard

open Text

theorem Register.plain_name : ∀ register : Register, Plain register.name := by
  decide +kernel

theorem Register.name_inj :
    ∀ first second : Register, first.name = second.name → first = second := by
  decide +kernel

theorem Text.hex_toNat_inj {first second : UInt32} (same : hex first.toNat = hex second.toNat) :
    first = second :=
  UInt32.toNat_inj.1 (hex_inj same)

namespace Offset

/-- The written form of an offset: a name or a number, and what follows from the first mark on. -/
def pieces : Offset → List Char × List Char
  | .scaled index scale => (index.name.toList, '*' :: (hex scale.toNat).toList)
  | .shifted index shift => (index.name.toList, ':' :: (hex shift.toNat).toList)
  | .fixed immediate => ((hex immediate.toNat).toList, [])

theorem plain_pieces (offset : Offset) : ∀ c ∈ offset.pieces.1, c.isAlphanum = true := by
  cases offset with
  | scaled index scale | shifted index shift =>
    simp only [pieces]
    exact index.plain_name
  | fixed immediate =>
    simp only [pieces]
    exact plain_hex immediate.toNat

theorem breaks_pieces (offset : Offset) :
    Breaks Char.isAlphanum (offset.pieces.2 ++ [']']) := by
  cases offset with
  | scaled index scale => exact breaks_cons rfl
  | shifted index shift => exact breaks_cons rfl
  | fixed immediate => exact breaks_cons rfl

theorem pieces_inj {first second : Offset} (heads : first.pieces.1 = second.pieces.1)
    (tails : first.pieces.2 = second.pieces.2) : first = second := by
  cases first with
  | scaled index scale =>
    cases second with
    | scaled other factor =>
      simp only [pieces, List.cons.injEq, true_and, String.toList_inj] at heads tails
      rw [index.name_inj other heads, hex_toNat_inj tails]
    | shifted | fixed => cases tails
  | shifted index shift =>
    cases second with
    | shifted other distance =>
      simp only [pieces, List.cons.injEq, true_and, String.toList_inj] at heads tails
      rw [index.name_inj other heads, hex_toNat_inj tails]
    | scaled | fixed => cases tails
  | fixed immediate =>
    cases second with
    | fixed other =>
      simp only [pieces, String.toList_inj] at heads
      rw [hex_toNat_inj heads]
    | scaled | shifted => cases tails

theorem comma_not_mem_pieces (offset : Offset) : ',' ∉ offset.pieces.2 := by
  have number (value : UInt32) : ',' ∉ (hex value.toNat).toList := (plain_hex _).not_mem rfl
  cases offset with
  | scaled index scale =>
    rw [pieces, List.mem_cons, not_or]
    exact ⟨by decide, number scale⟩
  | shifted index shift =>
    rw [pieces, List.mem_cons, not_or]
    exact ⟨by decide, number shift⟩
  | fixed immediate => exact List.not_mem_nil

end Offset

namespace Address

def sign (address : Address) : Char := if address.subtract then '-' else '+'

theorem toList_text (address : Address) :
    address.text.toList = '[' :: (address.base.name.toList ++
      address.sign :: (address.offset.pieces.1 ++ (address.offset.pieces.2 ++ [']']))) := by
  obtain ⟨base, offset, subtract⟩ := address
  cases subtract <;> cases offset <;> simp [text, sign, Offset.pieces]

theorem isAlphanum_sign (address : Address) : address.sign.isAlphanum = false := by
  obtain ⟨base, offset, subtract⟩ := address
  cases subtract <;> rfl

theorem subtract_inj {first second : Address} (same : first.sign = second.sign) :
    first.subtract = second.subtract := by
  cases plus : first.subtract <;> cases minus : second.subtract <;>
    simp [sign, plus, minus] at same ⊢

theorem text_inj {first second : Address} (same : first.text = second.text) : first = second := by
  rw [← String.toList_inj, toList_text, toList_text, List.cons.injEq] at same
  obtain ⟨names, rests⟩ := append_inj_of_breaks first.base.plain_name second.base.plain_name
    (breaks_cons first.isAlphanum_sign) (breaks_cons second.isAlphanum_sign) same.2
  obtain ⟨signs, offsets⟩ := List.cons.inj rests
  obtain ⟨heads, tails⟩ := append_inj_of_breaks first.offset.plain_pieces
    second.offset.plain_pieces first.offset.breaks_pieces second.offset.breaks_pieces offsets
  have bases := Register.name_inj _ _ (String.toList_inj.1 names)
  have amounts := Offset.pieces_inj heads (List.append_cancel_right tails)
  have minus := subtract_inj signs
  obtain ⟨base, offset, subtract⟩ := first
  cases bases
  cases amounts
  cases minus
  rfl

theorem comma_ne_sign (address : Address) : ',' ≠ address.sign := by
  rw [sign]
  split <;> decide

theorem comma_not_mem_text (address : Address) : ',' ∉ address.text.toList := by
  have base := address.base.plain_name.not_mem (c := ',') rfl
  have heads : ',' ∉ address.offset.pieces.1 := by
    intro inside
    cases address.offset.plain_pieces _ inside
  rw [toList_text]
  simp only [List.mem_cons, List.mem_append, not_or]
  exact ⟨by decide, base, address.comma_ne_sign, heads,
    address.offset.comma_not_mem_pieces, by decide, List.not_mem_nil⟩

end Address

namespace Instruction

theorem distanceText_inj {first second : Int32}
    (same : distanceText first = distanceText second) : first = second := by
  rw [← Int32.toInt_inj]
  rw [distanceText, distanceText] at same
  by_cases back : first.toInt < 0 <;> by_cases backward : second.toInt < 0 <;>
    simp only [back, backward, ↓reduceIte] at same
  · have amounts := hex_inj ((String.append_right_inj "-").1 same)
    omega
  · have marks := congrArg (fun text => text.toList.head?) same
    simp at marks
  · have marks := congrArg (fun text => text.toList.head?) same
    simp at marks
  · have amounts := hex_inj ((String.append_right_inj "+").1 same)
    omega

theorem comma_not_mem_distanceText (distance : Int32) : ',' ∉ (distanceText distance).toList := by
  have digits := (plain_hex distance.toInt.natAbs).not_mem (c := ',') rfl
  rw [distanceText, String.toList_append, List.mem_append, not_or]
  refine ⟨?_, digits⟩
  split <;> decide

theorem copNumberText_inj {first second : Nat}
    (same : copNumberText first = copNumberText second) : first = second :=
  toString_inj ((String.append_right_inj "$").1 same)

theorem comma_not_mem_copNumberText (number : Nat) : ',' ∉ (copNumberText number).toList := by
  rw [copNumberText, String.toList_append, List.mem_append, not_or]
  exact ⟨by decide, (plain_toString number).not_mem rfl⟩

end Instruction

inductive Operand where
  | register (value : Register)
  | constant (value : UInt32)
  | padded (value : UInt32)
  | distance (value : Int32)
  | cop (number : UInt8)
  | cell (number : UInt16)
  | address (value : Address)

namespace Operand

def text : Operand → String
  | .register value => value.name
  | .constant value => hex value.toNat
  | .padded value => hexWord value.toNat
  | .distance value => Instruction.distanceText value
  | .cop number => Instruction.copNumberText number.toNat
  | .cell number => Instruction.copNumberText number.toNat
  | .address value => value.text

/-- Operands of one kind, which is the constructor, are the same if their texts are. -/
theorem text_inj {first second : Operand} (kinds : first.ctorIdx = second.ctorIdx)
    (same : first.text = second.text) : first = second := by
  cases first with
  | register value =>
    cases second with
    | register other => rw [Register.name_inj value other same]
    | _ => cases kinds
  | constant value =>
    cases second with
    | constant other => rw [hex_toNat_inj same]
    | _ => cases kinds
  | padded value =>
    cases second with
    | padded other => rw [UInt32.toNat_inj.1 (hexWord_inj same)]
    | _ => cases kinds
  | distance value =>
    cases second with
    | distance other => rw [Instruction.distanceText_inj same]
    | _ => cases kinds
  | cop number =>
    cases second with
    | cop other => rw [UInt8.toNat_inj.1 (Instruction.copNumberText_inj same)]
    | _ => cases kinds
  | cell number =>
    cases second with
    | cell other => rw [UInt16.toNat_inj.1 (Instruction.copNumberText_inj same)]
    | _ => cases kinds
  | address value =>
    cases second with
    | address other => rw [Address.text_inj same]
    | _ => cases kinds

theorem comma_not_mem_text (operand : Operand) : ',' ∉ operand.text.toList := by
  cases operand with
  | register value => exact value.plain_name.not_mem rfl
  | constant value => exact (plain_hex _).not_mem rfl
  | padded value => exact (plain_hexWord _).not_mem rfl
  | distance value => exact Instruction.comma_not_mem_distanceText value
  | cop number => exact Instruction.comma_not_mem_copNumberText _
  | cell number => exact Instruction.comma_not_mem_copNumberText _
  | address value => exact value.comma_not_mem_text

theorem texts_inj {first second : List Operand}
    (kinds : first.map Operand.ctorIdx = second.map Operand.ctorIdx)
    (same : first.map text = second.map text) : first = second := by
  induction first generalizing second with
  | nil =>
    cases second with
    | nil => rfl
    | cons other more => cases same
  | cons operand rest ih =>
    cases second with
    | nil => cases same
    | cons other more =>
      rw [List.map_cons, List.map_cons, List.cons.injEq] at kinds same
      rw [text_inj kinds.1 same.1, ih kinds.2 same.2]

end Operand

end RiscBoard
