import RiscBoard.Proofs.Core.Atomicity
import RiscBoard.Proofs.Core.Environment
import RiscBoard.Proofs.Instruction.Decoding

/-!
What a handler learns from the cause word. A cause has the number of its exception in the lowest
eight bits and an immediate above them. One bit of the group lies among those of the immediate, so
that the kind of an exception can always be read off its cause, and its immediate except for bit 14.
-/

namespace RiscBoard

namespace Exception

def immediate? : Exception → Option UInt32
  | .syscall immediate | .debug immediate | .softwareException immediate => some immediate
  | _ => none

def CarriesShort (exception : Exception) : Prop :=
  ∀ immediate ∈ exception.immediate?, immediate.toNat < 2 ^ 24

/-- The bit of an immediate that falls on the bit of the processor's group. -/
def groupBit : UInt32 := 0x4000

def mapImmediate (change : UInt32 → UInt32) : Exception → Exception
  | .syscall immediate => .syscall (change immediate)
  | .debug immediate => .debug (change immediate)
  | .softwareException immediate => .softwareException (change immediate)
  | other => other

/-- An exception as its cause shows it, where the lost bit of an immediate is always set. -/
def shown (exception : Exception) : Exception := exception.mapImmediate (· ||| groupBit)

def twin (exception : Exception) : Exception := exception.mapImmediate (· ^^^ groupBit)

def number : Exception → Nat
  | .syscall _ => 0
  | .debug _ => 1
  | .softwareException _ => 2
  | .illegalInstruction => 3
  | .invalidCopAccess => 4
  | .trapLevel level => 5 + level.index.val
  | .invalidTrapLevel => 9
  | .arithmetic => 10
  | .noMapping => 0
  | .readProtection => 1
  | .writeProtection => 2
  | .execProtection => 3
  | .fetchMisaligned => 4
  | .dataMisaligned => 5

def detail : Exception → UInt32
  | .syscall immediate | .debug immediate | .softwareException immediate =>
    (immediate &&& 0xffffff) ||| groupBit
  | .illegalInstruction | .invalidCopAccess | .trapLevel _ | .invalidTrapLevel | .arithmetic =>
    groupBit
  | .noMapping | .readProtection | .writeProtection | .execProtection | .fetchMisaligned
  | .dataMisaligned => 0x8000

/-- The exception that a handler reads off a cause. -/
def ofCause? (cause : UInt32) : Option Exception :=
  let detail := UInt32.ofNat (cause.toNat / 2 ^ 8)
  if Word.bit cause 22 then
    match cause.toNat % 2 ^ 8 with
    | 0 => some (.syscall detail)
    | 1 => some (.debug detail)
    | 2 => some (.softwareException detail)
    | 3 => some .illegalInstruction
    | 4 => some .invalidCopAccess
    | 5 => some (.trapLevel .level0)
    | 6 => some (.trapLevel .level1)
    | 7 => some (.trapLevel .level2)
    | 8 => some (.trapLevel .level3)
    | 9 => some .invalidTrapLevel
    | 10 => some .arithmetic
    | _ => none
  else
    match cause.toNat % 2 ^ 8 with
    | 0 => some .noMapping
    | 1 => some .readProtection
    | 2 => some .writeProtection
    | 3 => some .execProtection
    | 4 => some .fetchMisaligned
    | 5 => some .dataMisaligned
    | _ => none

section Immediate

variable (exception : Exception) (change : UInt32 → UInt32)

theorem immediate?_mapImmediate :
    (exception.mapImmediate change).immediate? = exception.immediate?.map change := by
  cases exception with
  | _ => rfl

theorem number_mapImmediate : (exception.mapImmediate change).number = exception.number := by
  cases exception with
  | _ => rfl

theorem mapImmediate_mapImmediate (later : UInt32 → UInt32) :
    (exception.mapImmediate change).mapImmediate later =
      exception.mapImmediate fun immediate => later (change immediate) := by
  cases exception with
  | _ => rfl

theorem mapImmediate_of_plain {exception : Exception} (plain : exception.immediate? = none) :
    exception.mapImmediate change = exception := by
  cases exception with
  | syscall immediate | debug immediate | softwareException immediate => cases plain
  | _ => rfl

end Immediate

theorem number_lt (exception : Exception) : exception.number < 2 ^ 8 := by
  cases exception with
  | trapLevel level =>
    have small := level.index.isLt
    simp only [number]
    omega
  | _ => simp [number]

theorem toNat_masked_lt (immediate : UInt32) : (immediate &&& 0xffffff).toNat < 2 ^ 24 := by
  rw [UInt32.toNat_and]
  exact Nat.and_lt_two_pow _ (by decide)

theorem toNat_packed (immediate : UInt32) :
    (packed immediate).toNat = (immediate &&& 0xffffff).toNat <<< 8 := by
  have small := toNat_masked_lt immediate
  rw [packed, UInt32.toNat_shiftLeft]
  apply Nat.mod_eq_of_lt
  rw [Nat.shiftLeft_eq]
  change (immediate &&& 0xffffff).toNat * 2 ^ 8 < 2 ^ 32
  omega

theorem toNat_packed_or (immediate number : UInt32) (small : number.toNat < 2 ^ 8) :
    (processorGroup ||| number ||| packed immediate).toNat =
      2 ^ 8 * ((immediate &&& 0xffffff) ||| groupBit).toNat + number.toNat := by
  have group : processorGroup.toNat = groupBit.toNat <<< 8 := rfl
  rw [UInt32.toNat_or, UInt32.toNat_or, UInt32.toNat_or, toNat_packed, group, Nat.mul_comm,
    ← Nat.shiftLeft_eq, Nat.shiftLeft_add_eq_or_of_lt small, Nat.shiftLeft_or_distrib]
  ac_rfl

theorem toNat_code (exception : Exception) :
    exception.code.toNat = 2 ^ 8 * exception.detail.toNat + exception.number := by
  cases exception with
  | syscall immediate => exact toNat_packed_or immediate 0 (by decide)
  | debug immediate => exact toNat_packed_or immediate 1 (by decide)
  | softwareException immediate => exact toNat_packed_or immediate 2 (by decide)
  | trapLevel level => cases level <;> rfl
  | _ => rfl

theorem number_code (exception : Exception) :
    exception.code.toNat % 2 ^ 8 = exception.number := by
  rw [toNat_code, Nat.mul_add_mod, Nat.mod_eq_of_lt exception.number_lt]

theorem detail_code (exception : Exception) :
    UInt32.ofNat (exception.code.toNat / 2 ^ 8) = exception.detail := by
  rw [toNat_code, Nat.mul_add_div (by decide), Nat.div_eq_of_lt exception.number_lt, Nat.add_zero,
    UInt32.ofNat_toNat]

/-- Bit 22 of a cause is bit 14 above the number. -/
theorem bit_code (exception : Exception) :
    Word.bit exception.code 22 = exception.detail.toNat.testBit 14 := by
  rw [Word.bit, BitVec.getLsbD, UInt32.toNat_toBitVec, toNat_code,
    Nat.testBit_two_pow_mul_add _ exception.number_lt, if_neg (by decide)]

/-- No exception has the number 255. -/
theorem code_ne_resetCause (exception : Exception) : exception.code ≠ resetCause := by
  intro same
  have numbered := exception.number_code
  rw [same] at numbered
  have last : exception.number = 255 := numbered.symm
  cases exception with
  | trapLevel level => cases level <;> cases last
  | _ => cases last

theorem masked_of_short {immediate : UInt32} (short : immediate.toNat < 2 ^ 24) :
    immediate &&& 0xffffff = immediate := by
  apply UInt32.toNat_inj.1
  rw [UInt32.toNat_and]
  exact (Nat.and_two_pow_sub_one_eq_mod _ 24).trans (Nat.mod_eq_of_lt short)

theorem testBit_groupBit (immediate : UInt32) :
    (immediate ||| groupBit).toNat.testBit 14 = true := by
  rw [UInt32.toNat_or, Nat.testBit_or]
  exact Bool.or_true _

theorem ofCause?_code {exception : Exception} (short : exception.CarriesShort) :
    ofCause? exception.code = some exception.shown := by
  simp only [ofCause?, number_code, detail_code, bit_code]
  cases exception with
  | syscall immediate | debug immediate | softwareException immediate =>
    have kept := masked_of_short (short immediate rfl)
    simp only [detail, kept, testBit_groupBit, ↓reduceIte]
    rfl
  | trapLevel level => cases level <;> rfl
  | _ => rfl

theorem masked_or_groupBit (immediate : UInt32) :
    ((immediate ||| groupBit) &&& 0xffffff) ||| groupBit =
      (immediate &&& 0xffffff) ||| groupBit := by
  have inside : groupBit.toNat &&& 0xffffff = groupBit.toNat := rfl
  apply UInt32.toNat_inj.1
  simp only [UInt32.toNat_or, UInt32.toNat_and]
  change (_ ||| _) &&& 0xffffff ||| _ = (_ &&& 0xffffff) ||| _
  rw [Nat.and_or_distrib_right, inside, Nat.or_assoc, Nat.or_self]

theorem detail_shown (exception : Exception) : exception.shown.detail = exception.detail := by
  cases exception with
  | syscall immediate | debug immediate | softwareException immediate =>
    exact masked_or_groupBit immediate
  | _ => rfl

theorem code_shown (exception : Exception) : exception.shown.code = exception.code := by
  apply UInt32.toNat_inj.1
  rw [toNat_code, toNat_code, detail_shown, shown, number_mapImmediate]

theorem code_eq_iff {first second : Exception} (firstShort : first.CarriesShort)
    (secondShort : second.CarriesShort) :
    first.code = second.code ↔ first.shown = second.shown := by
  constructor
  · intro same
    have read := congrArg ofCause? same
    rw [ofCause?_code firstShort, ofCause?_code secondShort] at read
    exact Option.some.inj read
  · intro same
    rw [← code_shown first, same, code_shown second]

/-- An exception without an immediate is shown as it is, and so is no other. -/
theorem eq_of_shown {exception other : Exception} (plain : exception.immediate? = none)
    (same : other.shown = exception.shown) : other = exception := by
  rw [shown, shown, mapImmediate_of_plain _ plain] at same
  have carried := congrArg immediate? same
  rw [immediate?_mapImmediate, plain] at carried
  have otherPlain := Option.map_eq_none_iff.1 carried
  rwa [mapImmediate_of_plain _ otherPlain] at same

theorem xor_or_groupBit (immediate : UInt32) :
    (immediate ^^^ groupBit) ||| groupBit = immediate ||| groupBit := by
  apply UInt32.toNat_inj.1
  apply Nat.eq_of_testBit_eq
  intro position
  simp only [UInt32.toNat_or, UInt32.toNat_xor, Nat.testBit_or, Nat.testBit_xor]
  cases groupBit.toNat.testBit position with
  | true => rw [Bool.or_true, Bool.or_true]
  | false => rw [Bool.xor_false]

theorem shown_twin (exception : Exception) : exception.twin.shown = exception.shown := by
  rw [shown, twin, mapImmediate_mapImmediate, shown]
  exact congrArg exception.mapImmediate (funext xor_or_groupBit)

theorem xor_groupBit_ne (immediate : UInt32) : immediate ^^^ groupBit ≠ immediate := by
  intro same
  have bits := congrArg (fun word => word.toNat.testBit 14) same
  simp only [UInt32.toNat_xor, Nat.testBit_xor] at bits
  have set : groupBit.toNat.testBit 14 = true := rfl
  rw [set, Bool.xor_true] at bits
  exact (Bool.not_eq_self _).1 bits

theorem twin_eq_iff (exception : Exception) :
    exception.twin = exception ↔ exception.immediate? = none := by
  constructor
  · intro same
    have carried := congrArg immediate? same
    rw [twin, immediate?_mapImmediate] at carried
    cases found : exception.immediate? with
    | none => rfl
    | some immediate =>
      rw [found] at carried
      exact absurd (Option.some.inj carried) (xor_groupBit_ne immediate)
  · exact mapImmediate_of_plain _

theorem CarriesShort.twin {exception : Exception} (short : exception.CarriesShort) :
    exception.twin.CarriesShort := by
  intro changed carried
  rw [Exception.twin, immediate?_mapImmediate] at carried
  obtain ⟨immediate, carries, rfl⟩ := Option.map_eq_some_iff.1 carried
  rw [UInt32.toNat_xor]
  exact Nat.xor_lt_two_pow (short immediate carries) (by decide)

/-- What an access to virtual memory or the execution of a word can end in. -/
inductive Raisable (exception : Exception) : Prop where
  | refused (mmu : Mmu) (address : UInt32) (size : AccessSize) (kind : AccessKind)
      (faults : mmu.translate address size kind = .error exception)
  | executed (core : Core) (word : UInt32)
      (faults : (core.executeWord word).value.fault = some exception)

theorem immediate?_of_mapped {mmu : Mmu} {address : UInt32} {kind : AccessKind} {fault : Exception}
    (faults : mmu.mapped address kind = .error fault) : fault.immediate? = none := by
  unfold Mmu.mapped at faults
  split at faults
  · split at faults
    · cases faults
      rfl
    · split at faults
      · cases faults
      · cases faults
        cases kind <;> rfl
  · cases faults

theorem immediate?_of_alignmentFault? {mmu : Mmu} {physical : UInt32} {size : AccessSize}
    {fault : Exception} (faults : mmu.alignmentFault? physical size = some fault) :
    fault.immediate? = none := by
  unfold Mmu.alignmentFault? at faults
  split at faults
  · split at faults
    · cases faults
    · cases faults
      rfl
  · split at faults
    · cases faults
      rfl
    · cases faults
  · split at faults
    · cases faults
      rfl
    · cases faults
  · cases faults

theorem immediate?_of_translate {mmu : Mmu} {address : UInt32} {size : AccessSize}
    {kind : AccessKind} {fault : Exception}
    (faults : mmu.translate address size kind = .error fault) : fault.immediate? = none := by
  unfold Mmu.translate at faults
  split at faults
  · next unmapped refused =>
    cases faults
    exact immediate?_of_mapped refused
  · split at faults
    · next misaligned refused =>
      cases faults
      exact immediate?_of_alignmentFault? refused
    · cases faults

theorem carriesShort_of_none {exception : Exception} (plain : exception.immediate? = none) :
    exception.CarriesShort := by
  intro immediate carried
  rw [plain] at carried
  cases carried

theorem carriesShort_of_execute {core : Core} {instruction : Instruction} {fault : Exception}
    (encodable : instruction.Encodable)
    (faults : (core.execute instruction).value.fault = some fault) : fault.CarriesShort := by
  have computed (op : AluOp) (dest : Register) (left right : UInt32)
      (ends : (core.executeAlu op dest left right).value.fault = some fault) :
      fault.CarriesShort := by
    unfold Core.executeAlu at ends
    split at ends
    · cases ends
      exact carriesShort_of_none rfl
    · cases ends
  cases instruction with
  | aluRegister op dest left right => exact computed op dest _ _ faults
  | aluImmediate op dest immediate => exact computed op dest _ _ faults
  | branch condition link left right distance =>
    rw [Core.execute, Core.executeBranch_completes] at faults
    cases faults
  | branchRegister condition link relative left right target =>
    rw [Core.execute, Core.executeBranch_completes] at faults
    cases faults
  | moveToCop source cop cell =>
    simp only [Core.execute] at faults
    split at faults
    · cases faults
      exact carriesShort_of_none rfl
    · cases faults
  | moveFromCop dest cop cell =>
    simp only [Core.execute] at faults
    split at faults
    · cases faults
      exact carriesShort_of_none rfl
    · cases faults
  | syscall immediate | debug immediate =>
    rw [Core.fault_executeHook faults]
    rintro _ ⟨rfl⟩
    exact encodable
  | trapLevel level =>
    cases faults
    exact carriesShort_of_none rfl
  | softwareException immediate =>
    cases faults
    rintro _ ⟨rfl⟩
    exact encodable
  | load size dest address =>
    simp only [Core.execute, Core.executeLoad] at faults
    split at faults
    · next found refused =>
      cases faults
      exact carriesShort_of_none (immediate?_of_translate refused)
    · cases faults
  | store size source address =>
    simp only [Core.execute, Core.executeStore] at faults
    split at faults
    · next found refused =>
      cases faults
      exact carriesShort_of_none (immediate?_of_translate refused)
    · cases faults
  | loadAddress dest address => cases faults
  | loadImmediate dest immediate shift => cases faults
  | setIf condition dest source immediate => cases faults
  | coprocessor word => cases faults

theorem Raisable.carriesShort {exception : Exception} (raisable : exception.Raisable) :
    exception.CarriesShort := by
  cases raisable with
  | refused mmu address size kind faults =>
    exact carriesShort_of_none (immediate?_of_translate faults)
  | executed core word faults =>
    cases decoded : Instruction.decode word with
    | error error =>
      rw [core.executeWord_of_undecodable decoded] at faults
      cases faults
      exact carriesShort_of_none rfl
    | ok instruction =>
      rw [core.executeWord_of_decode decoded] at faults
      exact carriesShort_of_execute ((Instruction.decode_eq_ok_iff _ _).1 decoded).1 faults

theorem raisable_of_execute {instruction : Instruction} {exception : Exception}
    (encodable : instruction.Encodable) (core : Core)
    (faults : (core.execute instruction).value.fault = some exception) : exception.Raisable := by
  have follows := BitLayout.follows_word (Instruction.fits_layout encodable)
    (Instruction.width_layout instruction)
  have decoded := (Instruction.decode_eq_ok_iff instruction.encode instruction).2
    ⟨encodable, follows⟩
  apply Raisable.executed core instruction.encode
  rw [core.executeWord_of_decode decoded]
  exact faults

theorem raisable_of_carries {exception : Exception} {immediate : UInt32}
    (carries : exception.immediate? = some immediate) (short : exception.CarriesShort) :
    exception.Raisable := by
  have fits := short immediate carries
  cases exception with
  | syscall _ =>
    cases carries
    have encodable : (Instruction.syscall immediate).Encodable := fits
    exact raisable_of_execute encodable (.create 0 .empty) rfl
  | debug _ =>
    cases carries
    have encodable : (Instruction.debug immediate).Encodable := fits
    exact raisable_of_execute encodable (.create 0 .empty) rfl
  | softwareException _ =>
    cases carries
    have encodable : (Instruction.softwareException immediate).Encodable := fits
    exact raisable_of_execute encodable (.create 0 .empty) rfl
  | _ => cases carries

theorem Raisable.twin {exception : Exception} (raisable : exception.Raisable) :
    exception.twin.Raisable := by
  have short := raisable.carriesShort.twin
  cases carried : exception.immediate? with
  | none =>
    rw [(twin_eq_iff exception).2 carried]
    exact raisable
  | some immediate =>
    have carries : exception.twin.immediate? = some (immediate ^^^ groupBit) := by
      rw [Exception.twin, immediate?_mapImmediate, carried]
      rfl
    exact raisable_of_carries carries short

/-- Two causes are the same exactly if they show the same, which is all of an exception but for bit
14 of its immediate. So a handler can read it off, and a cause belongs to one exception only exactly
if this carries no immediate. No cause is that of a reset. -/
theorem causes_tell_apart {exception : Exception} (raisable : exception.Raisable) :
    (∀ other : Exception, other.Raisable →
      (other.code = exception.code ↔ other.shown = exception.shown)) ∧
    ofCause? exception.code = some exception.shown ∧
    ((∀ other : Exception, other.Raisable → other.code = exception.code → other = exception) ↔
      exception.immediate? = none) ∧
    exception.code ≠ resetCause := by
  have short := raisable.carriesShort
  refine ⟨?_, ofCause?_code short, ?_, code_ne_resetCause exception⟩
  · intro other otherRaisable
    exact code_eq_iff otherRaisable.carriesShort short
  · constructor
    · intro alone
      have same : exception.twin.code = exception.code := by
        rw [← code_shown, shown_twin, code_shown]
      exact (twin_eq_iff exception).1 (alone exception.twin raisable.twin same)
    · intro plain other otherRaisable same
      exact eq_of_shown plain ((code_eq_iff otherRaisable.carriesShort short).1 same)

/-- The cause of `syscall 0x1234` shows that the number was 0x1234 or 0x5234, and that of a fetch
from an address that nothing maps shows just that. -/
theorem calling_told_apart :
    (syscall 0x1234).Raisable ∧ noMapping.Raisable ∧
      ofCause? (syscall 0x1234).code = some (syscall 0x5234) ∧
      noMapping.code ≠ (syscall 0x1234).code ∧
      ∀ other : Exception, other.Raisable → other.code = noMapping.code → other = noMapping := by
  have calling : (syscall 0x1234).Raisable := .executed (.create 0 .empty) 0x78001234 rfl
  have unmapped : noMapping.Raisable :=
    .refused { Mmu.cleared with control := MmuControl.cleared.setEnabled true } 0 .exec .execute rfl
  obtain ⟨same_iff, read, -, -⟩ := causes_tell_apart calling
  refine ⟨calling, unmapped, read, ?_, (causes_tell_apart unmapped).2.2.1.2 rfl⟩
  intro same
  cases (same_iff noMapping unmapped).1 same

/-- Two system calls that a handler cannot tell apart. -/
theorem systemCalls_share_cause :
    ((Core.create 0 .empty).executeWord 0x78000000).value.fault = some (syscall 0) ∧
      ((Core.create 0 .empty).executeWord 0x78004000).value.fault = some (syscall 0x4000) ∧
      (syscall 0).code = (syscall 0x4000).code ∧
      ¬∀ first second : Exception, first.Raisable → second.Raisable →
        first.code = second.code → first = second := by
  have first : ((Core.create 0 .empty).executeWord 0x78000000).value.fault = some (syscall 0) := rfl
  have second :
      ((Core.create 0 .empty).executeWord 0x78004000).value.fault = some (syscall 0x4000) := rfl
  refine ⟨first, second, rfl, ?_⟩
  intro recovers
  have same := recovers _ _ (.executed _ _ first) (.executed _ _ second) rfl
  cases same

end Exception

end RiscBoard
