import RiscBoard.Proofs.Core.Effect
import RiscBoard.Proofs.Text.Operand

/-!
The assembler text of an instruction stands for that instruction alone. An instruction is its form,
which the mnemonic and the number of operands tell, with its operands in place. Only the constant
of a load-immediate is written as its value, which several pairs of constant and shift have.
-/

namespace RiscBoard.Instruction

open Text

def values (instruction : Instruction) : List Operand :=
  if instruction = noOperation then []
  else
    match instruction with
    | .aluRegister _ dest left right => [.register dest, .register left, .register right]
    | .aluImmediate _ dest immediate => [.register dest, .constant immediate]
    | .branch _ _ left right distance => [.register left, .register right, .distance distance]
    | .branchRegister _ _ _ left right target =>
      [.register left, .register right, .register target]
    | .moveToCop source cop cell => [.register source, .cop cop, .cell cell]
    | .moveFromCop dest cop cell => [.cop cop, .cell cell, .register dest]
    | .syscall immediate => [.constant immediate]
    | .trapLevel _ => []
    | .debug immediate => [.constant immediate]
    | .softwareException immediate => [.constant immediate]
    | .load _ dest address => [.register dest, .address address]
    | .store _ source address => [.address address, .register source]
    | .loadAddress dest address => [.register dest, .address address]
    | .loadImmediate dest immediate shift => [.register dest, .padded (immediate <<< shift)]
    | .setIf _ dest source immediate => [.register dest, .register source, .constant immediate]
    | .coprocessor word => [.padded word]

theorem operands_eq (instruction : Instruction) :
    instruction.operands = instruction.values.map Operand.text := by
  unfold operands values
  split
  · rfl
  · cases instruction <;> rfl

def blankAddress : Address := ⟨.link, .fixed 0, false⟩

def blanked : Instruction → Instruction
  | .aluRegister op _ _ _ => .aluRegister op .link .link .link
  | .aluImmediate op _ _ => .aluImmediate op .link 0
  | .branch condition link _ _ _ => .branch condition link .link .link 0
  | .branchRegister condition link relative _ _ _ =>
    .branchRegister condition link relative .link .link .link
  | .moveToCop .. => .moveToCop .link 0 0
  | .moveFromCop .. => .moveFromCop .link 0 0
  | .syscall _ => .syscall 0
  | .trapLevel level => .trapLevel level
  | .debug _ => .debug 0
  | .softwareException _ => .softwareException 0
  | .load size _ _ => .load size .link blankAddress
  | .store size _ _ => .store size .link blankAddress
  | .loadAddress .. => .loadAddress .link blankAddress
  | .loadImmediate .. => .loadImmediate .link 0 0
  | .setIf condition _ _ _ => .setIf condition .link .link 0
  | .coprocessor _ => .coprocessor 0

theorem blanked_ne (instruction : Instruction) : instruction.blanked ≠ noOperation := by
  cases instruction <;> intro same <;> cases same

/-- What the mnemonic and the number of operands tell of an instruction. -/
def form (instruction : Instruction) : Instruction :=
  if instruction = noOperation then noOperation else instruction.blanked

def fill : Instruction → List Operand → Instruction
  | .aluRegister op _ _ _, [.register dest, .register left, .register right] =>
    .aluRegister op dest left right
  | .aluImmediate op _ _, [.register dest, .constant immediate] => .aluImmediate op dest immediate
  | .branch condition link _ _ _, [.register left, .register right, .distance distance] =>
    .branch condition link left right distance
  | .branchRegister condition link relative _ _ _,
      [.register left, .register right, .register target] =>
    .branchRegister condition link relative left right target
  | .moveToCop .., [.register source, .cop cop, .cell cell] => .moveToCop source cop cell
  | .moveFromCop .., [.cop cop, .cell cell, .register dest] => .moveFromCop dest cop cell
  | .syscall _, [.constant immediate] => .syscall immediate
  | .debug _, [.constant immediate] => .debug immediate
  | .softwareException _, [.constant immediate] => .softwareException immediate
  | .load size _ _, [.register dest, .address address] => .load size dest address
  | .store size _ _, [.address address, .register source] => .store size source address
  | .loadAddress .., [.register dest, .address address] => .loadAddress dest address
  | .loadImmediate .., [.register dest, .padded value] => .loadImmediate dest value 0
  | .setIf condition _ _ _, [.register dest, .register source, .constant immediate] =>
    .setIf condition dest source immediate
  | .coprocessor _, [.padded word] => .coprocessor word
  | form, _ => form

/-- The instruction with the constant of a load-immediate already shifted. -/
def normal : Instruction → Instruction
  | .loadImmediate dest immediate shift => .loadImmediate dest (immediate <<< shift) 0
  | instruction => instruction

theorem fill_form (instruction : Instruction) :
    instruction.form.fill instruction.values = instruction.normal := by
  by_cases idle : instruction = noOperation
  · rw [idle]
    rfl
  · simp only [form, values, idle, ↓reduceIte]
    cases instruction <;> rfl

theorem kinds_form (instruction : Instruction) :
    instruction.form.values.map Operand.ctorIdx = instruction.values.map Operand.ctorIdx := by
  by_cases idle : instruction = noOperation
  · rw [idle]
    rfl
  · simp only [form, values, idle, blanked_ne, ↓reduceIte]
    cases instruction <;> rfl

theorem mnemonic_form (instruction : Instruction) :
    instruction.form.mnemonic = instruction.mnemonic := by
  by_cases idle : instruction = noOperation
  · rw [idle]
    rfl
  · simp only [form, mnemonic, idle, blanked_ne, ↓reduceIte]
    cases instruction <;> rfl

def plainForms : List Instruction :=
  [noOperation, .moveToCop .link 0 0, .moveFromCop .link 0 0, .syscall 0, .debug 0,
    .softwareException 0, .loadAddress .link blankAddress, .loadImmediate .link 0 0,
    .coprocessor 0]

def aluForms (op : AluOp) : List Instruction :=
  [.aluRegister op .link .link .link, .aluImmediate op .link 0]

def linkForms (condition : Condition) (link : Bool) : List Instruction :=
  [.branch condition link .link .link 0, .branchRegister condition link false .link .link .link,
    .branchRegister condition link true .link .link .link]

def conditionForms (condition : Condition) : List Instruction :=
  .setIf condition .link .link 0 :: linkForms condition false ++ linkForms condition true

def sizeForms (size : AccessSize) : List Instruction :=
  [.load size .link blankAddress, .store size .link blankAddress]

def forms : List Instruction :=
  plainForms ++ AluOp.table.toList.flatMap aluForms ++
    Condition.table.toList.flatMap conditionForms ++ AccessSize.table.toList.flatMap sizeForms ++
      PrivilegeLevel.table.toList.map .trapLevel

theorem blanked_mem (instruction : Instruction) : instruction.blanked ∈ forms := by
  -- A form has no operands left, so what a mnemonic is made of is all that has to be tried.
  cases instruction with
  | aluRegister op | aluImmediate op =>
    rw [blanked]
    cases op <;> decide +kernel
  | branch condition link =>
    rw [blanked]
    cases condition <;> cases link <;> decide +kernel
  | branchRegister condition link relative =>
    rw [blanked]
    cases condition <;> cases link <;> cases relative <;> decide +kernel
  | setIf condition =>
    rw [blanked]
    cases condition <;> decide +kernel
  | load size | store size =>
    rw [blanked]
    cases size <;> decide +kernel
  | trapLevel level => cases level <;> decide +kernel
  | _ =>
    rw [blanked]
    decide +kernel

theorem form_mem (instruction : Instruction) : instruction.form ∈ forms := by
  rw [form]
  split
  · exact List.mem_of_mem_head? rfl
  · exact instruction.blanked_mem

def formOf? (mnemonic : String) (count : Nat) : Option Instruction :=
  forms.find? fun form => form.values.length == count && form.mnemonic == mnemonic

theorem formOf?_of_mem :
    ∀ form ∈ forms, formOf? form.mnemonic form.values.length = some form := by decide +kernel

/-- The mnemonic alone would not do: an operation on registers and one on a constant share it. -/
theorem form_inj {first second : Instruction} (names : first.mnemonic = second.mnemonic)
    (counts : first.values.length = second.values.length) : first.form = second.form := by
  have lengths (instruction : Instruction) :
      instruction.form.values.length = instruction.values.length := by
    simpa using congrArg List.length instruction.kinds_form
  have known := formOf?_of_mem _ first.form_mem
  rw [mnemonic_form, lengths, names, counts, ← mnemonic_form, ← lengths,
    formOf?_of_mem _ second.form_mem] at known
  exact (Option.some.inj known).symm

/-- Mnemonic and operands tell an instruction, up to the shift of a load-immediate. -/
theorem normal_inj {first second : Instruction} (names : first.mnemonic = second.mnemonic)
    (operands : first.operands = second.operands) : first.normal = second.normal := by
  rw [operands_eq, operands_eq] at operands
  have counts : first.values.length = second.values.length := by
    simpa using congrArg List.length operands
  have forms := form_inj names counts
  have values : first.values = second.values := by
    apply Operand.texts_inj _ operands
    rw [← kinds_form, forms, kinds_form]
  rw [← fill_form, forms, values, fill_form]

theorem blank_not_mem_mnemonic (instruction : Instruction) :
    ' ' ∉ instruction.mnemonic.toList := by
  have single : ∀ form ∈ forms, ' ' ∉ form.mnemonic.toList := by decide +kernel
  rw [← mnemonic_form]
  exact single _ instruction.form_mem

theorem comma_not_mem_operands (instruction : Instruction) :
    ∀ piece ∈ instruction.operands.map String.toList, ',' ∉ piece := by
  rw [operands_eq, List.map_map]
  intro piece inside
  obtain ⟨operand, _, rfl⟩ := List.mem_map.1 inside
  exact operand.comma_not_mem_text

def operandText : List String → List Char
  | [] => []
  | operands => ' ' :: [',', ' '].intercalate (operands.map String.toList)

theorem toList_text (instruction : Instruction) :
    instruction.text.toList = instruction.mnemonic.toList ++ operandText instruction.operands := by
  rw [text]
  cases instruction.operands with
  | nil => rw [operandText, List.append_nil]
  | cons operand rest => simp [operandText, String.toList_intercalate]

theorem breaks_operandText (operands : List String) :
    Breaks (· != ' ') (operandText operands) := by
  cases operands with
  | nil => exact breaks_nil
  | cons operand rest => exact breaks_cons rfl

theorem operandText_inj {first second : List String}
    (firstFree : ∀ piece ∈ first.map String.toList, ',' ∉ piece)
    (secondFree : ∀ piece ∈ second.map String.toList, ',' ∉ piece)
    (same : operandText first = operandText second) : first = second := by
  cases first with
  | nil =>
    cases second with
    | nil => rfl
    | cons other more => cases same
  | cons operand rest =>
    cases second with
    | nil => cases same
    | cons other more =>
      have pieces := intercalate_inj (List.cons_ne_nil _ _) (List.cons_ne_nil _ _) firstFree
        secondFree (List.cons.inj same).2
      exact (List.map_inj_right fun _ _ => String.toList_inj.1).1 pieces

theorem mnemonic_operands_of_text {first second : Instruction} (same : first.text = second.text) :
    first.mnemonic = second.mnemonic ∧ first.operands = second.operands := by
  rw [← String.toList_inj, toList_text, toList_text] at same
  obtain ⟨names, operands⟩ := append_inj_of_breaks (unmarked first.blank_not_mem_mnemonic)
    (unmarked second.blank_not_mem_mnemonic) (breaks_operandText _) (breaks_operandText _) same
  exact ⟨String.toList_inj.1 names,
    operandText_inj first.comma_not_mem_operands second.comma_not_mem_operands operands⟩

/-- Load-immediates of one value into one register, by whatever shift. -/
def LoadSame (first second : Instruction) : Prop :=
  ∃ dest immediate shift other distance,
    first = .loadImmediate dest immediate shift ∧ second = .loadImmediate dest other distance ∧
      immediate <<< shift = other <<< distance

theorem load_or_normal (instruction : Instruction) :
    (∃ dest immediate shift, instruction = .loadImmediate dest immediate shift) ∨
      instruction.normal = instruction := by
  cases instruction with
  | loadImmediate dest immediate shift => exact .inl ⟨dest, immediate, shift, rfl⟩
  | _ => exact .inr rfl

/-- Only a load-immediate can differ from an instruction that is the same once shifts are done. -/
theorem eq_or_loadSame {first second : Instruction} (same : first.normal = second.normal) :
    first = second ∨ LoadSame first second := by
  rcases load_or_normal first with ⟨dest, immediate, shift, rfl⟩ | settled
  · rcases load_or_normal second with ⟨target, other, distance, rfl⟩ | settled
    · obtain ⟨rfl, values, _⟩ := loadImmediate.inj same
      exact .inr ⟨dest, immediate, shift, other, distance, rfl, rfl, values⟩
    · rw [settled] at same
      exact .inr ⟨dest, immediate, shift, _, 0, rfl, same.symm, UInt32.shiftLeft_zero.symm⟩
  · rcases load_or_normal second with ⟨target, other, distance, rfl⟩ | fixed
    · rw [settled] at same
      exact .inr ⟨target, _, 0, other, distance, same, rfl, UInt32.shiftLeft_zero⟩
    · rw [settled, fixed] at same
      exact .inl same

theorem text_eq_nop_iff (instruction : Instruction) :
    instruction.text = "nop" ↔ instruction = noOperation := by
  constructor
  · intro printed
    have same : instruction.text = noOperation.text := printed
    obtain ⟨names, operands⟩ := mnemonic_operands_of_text same
    rcases eq_or_loadSame (normal_inj names operands) with idle | ⟨_, _, _, _, _, _, load, _⟩
    · exact idle
    · cases load
  · rintro rfl
    rfl

theorem execute_normal (core : Core) (instruction : Instruction) :
    core.execute instruction.normal = core.execute instruction := by
  cases instruction with
  | loadImmediate dest immediate shift =>
    rw [normal, Core.execute, Core.execute, UInt32.shiftLeft_zero]
  | _ => rfl

/-- Words whose instructions have the same text have the same instruction, or load the same value
into the same register, and so they do the same to every core. -/
theorem text_faithful {first second : UInt32} {one other : Instruction}
    (decodesFirst : decode first = .ok one) (decodesSecond : decode second = .ok other)
    (same : one.text = other.text) :
    (one = other ∨ LoadSame one other) ∧
    (∀ core : Core, core.execute one = core.execute other ∧
      (core.executeWord first).value = (core.executeWord second).value) ∧
    (one.text = "nop" ↔ one = .aluRegister .add .zero .zero .zero) := by
  obtain ⟨names, operands⟩ := mnemonic_operands_of_text same
  have normals := normal_inj names operands
  refine ⟨eq_or_loadSame normals, ?_, ?_⟩
  · intro core
    have effects : core.execute one = core.execute other := by
      rw [← execute_normal, normals, execute_normal]
    rw [Core.executeWord_of_decode core decodesFirst, Core.executeWord_of_decode core decodesSecond,
      effects]
    exact ⟨rfl, rfl⟩
  · exact text_eq_nop_iff one

/-- Four, and two shifted by one: the text of both is `li at, 0x00000004`. -/
theorem loadingFour_faithful :
    LoadSame (.loadImmediate .scratch 4 0) (.loadImmediate .scratch 2 1) ∧
      ∀ core : Core, (core.executeWord 0x88400100).value = (core.executeWord 0x88400081).value := by
  have decodesFour : decode 0x88400100 = .ok (.loadImmediate .scratch 4 0) := rfl
  have decodesTwo : decode 0x88400081 = .ok (.loadImmediate .scratch 2 1) := rfl
  obtain ⟨related, effects, _⟩ :=
    text_faithful decodesFour decodesTwo (by decide +kernel)
  exact ⟨related.resolve_left (by decide), fun core => (effects core).2⟩

end RiscBoard.Instruction
