import Mathlib.Algebra.Group.Nat.Defs
import RiscBoard.Proofs.Core.Effect

/-!
What instructions mean. The outcome of an instruction is computed from the core as it is before: the
new values of registers, all assigned at once, at most one request to the bus, and little else. An
instruction completes exactly if it has an outcome, and then the core is as the outcome says,
whichever of the instruction's registers coincide.
-/

namespace RiscBoard

def RegisterFile.assign (file : RegisterFile) (values : Register → Option UInt32) : RegisterFile :=
  ⟨Vector.ofFn fun register => (values register).getD (file.get register)⟩

@[simp] theorem RegisterFile.get_assign (file : RegisterFile) (values : Register → Option UInt32)
    (register : Register) :
    (file.assign values).get register = (values register).getD (file.get register) := by
  simp [assign, get]

inductive BusRequest where
  | read (physical : UInt32) (size : AccessSize)
  | write (physical value : UInt32) (size : AccessSize)

def Bus.serve (bus : Bus) : Option BusRequest → Traced Bus
  | none => pure bus
  | some (.read physical size) => do
    let (_, asked) ← bus.read physical size
    pure asked
  | some (.write physical value size) => bus.write physical value size

/-- What a completed instruction does. -/
structure Outcome where
  /-- The new values of the registers that the instruction assigns. -/
  assigns : Register → Option UInt32
  request : Option BusRequest
  /-- A coprocessor cell and its new value. -/
  moves : Option (CopRegister × UInt32)
  /-- The call that the host serviced. -/
  asks : Option HookCall
  halts : Bool

namespace Outcome

def nothing : Outcome := ⟨fun _ => none, none, none, none, false⟩

def result (dest : Register) (value : UInt32) : Outcome :=
  { nothing with assigns := fun register => if register = dest then some value else none }

def jump (target : UInt32) (link? : Option UInt32) : Outcome :=
  { nothing with
    assigns := fun register =>
      if register = .programCounter then some target
      else if register = .link then link?
      else none }

end Outcome

/-- What a memory operand adds or takes, as a number that has not wrapped yet. Shift amounts count
modulo 32. -/
def Offset.amount (registers : RegisterFile) : Offset → Nat
  | .scaled index scale => (registers.get index).toNat * scale.toNat
  | .shifted index shift => (registers.get index).toNat * 2 ^ (shift.toNat % 32)
  | .fixed immediate => immediate.toNat

def Address.location (registers : RegisterFile) (address : Address) : Int :=
  let base := (registers.get address.base).toNat
  if address.subtract then base - address.offset.amount registers
  else base + address.offset.amount registers

namespace Instruction

def target? (registers : RegisterFile) : Instruction → Option UInt32
  | .branch _ _ _ _ distance => some (registers.pc + distance.toUInt32)
  | .branchRegister _ _ relative _ _ target =>
    some (if relative then registers.pc + registers.get target else registers.get target)
  | _ => none

def distance? (registers : RegisterFile) : Instruction → Option UInt32
  | .branch _ _ _ _ distance => some distance.toUInt32
  | .branchRegister _ _ true _ _ target => some (registers.get target)
  | _ => none

theorem target?_of_distance {registers : RegisterFile} {instruction : Instruction}
    {distance : UInt32} (relative : instruction.distance? registers = some distance) :
    instruction.target? registers = some (registers.pc + distance) := by
  cases instruction with
  | branch condition link left right apart =>
    cases relative
    rfl
  | branchRegister condition link isRelative left right target =>
    cases isRelative with
    | false => cases relative
    | true =>
      cases relative
      rfl
  | _ => cases relative

def links : Instruction → Bool
  | .branch _ link _ _ _ => link
  | .branchRegister _ link _ _ _ _ => link
  | _ => false

end Instruction

namespace Core

/-- The core with an outcome put into effect. Only a transfer of control touches the words in
flight. -/
def follow (core : Core) (outcome : Outcome) : Core :=
  let moved :=
    match outcome.moves with
    | none => core
    | some (register, value) => core.setCell register value
  { core with
    registers := core.registers.assign outcome.assigns
    pipeline :=
      if (outcome.assigns .programCounter).isSome then core.pipelineAfterTransfer
      else core.pipeline
    control := moved.control
    trap := moved.trap
    mmu := moved.mmu
    host :=
      match outcome.asks with
      | none => core.host
      | some request => core.host.map (·.asked request)
    halted := core.halted || outcome.halts
    bus := (core.bus.serve outcome.request).value }

def hostEvents (core : Core) : Option HookCall → List Event
  | none => []
  | some request => core.host.elim [] fun host => (host.call request).events

def aluValue? (core : Core) (op : AluOp) (dest : Register) (left right : UInt32) : Option UInt32 :=
  (op.apply (if op = .mla then core.registers.get dest else 0) left right).toOption

def serviced? (core : Core) (request : HookCall) : Option Outcome :=
  core.host.bind fun host =>
    match host.decides request with
    | .raise => none
    | .resume => some { Outcome.nothing with asks := some request }
    | .halt => some { Outcome.nothing with asks := some request, halts := true }

def branched (core : Core) (condition : Condition) (link : Bool) (left right : Register)
    (target : UInt32) : Outcome :=
  if condition.test (core.registers.get left) (core.registers.get right) then
    .jump target (if link then some core.pc else none)
  else .nothing

def loaded? (core : Core) (size : AccessSize) (dest : Register) (address : Address) :
    Option Outcome :=
  (core.mmu.translate (.ofInt (address.location core.registers)) size .read).toOption.map
    fun physical =>
      { Outcome.result dest (core.bus.read physical size).value.1 with
        request := some (.read physical size) }

def stored? (core : Core) (size : AccessSize) (source : Register) (address : Address) :
    Option Outcome :=
  (core.mmu.translate (.ofInt (address.location core.registers)) size .write).toOption.map
    fun physical =>
      { Outcome.nothing with request := some (.write physical (core.registers.get source) size) }

def outcome? (core : Core) : Instruction → Option Outcome
  | .aluRegister op dest left right =>
    (core.aluValue? op dest (core.registers.get left) (core.registers.get right)).map (.result dest)
  | .aluImmediate op dest immediate =>
    (core.aluValue? op dest (core.registers.get dest) immediate).map (.result dest)
  | .branch condition link left right distance =>
    some (core.branched condition link left right (core.pc + distance.toUInt32))
  | .branchRegister condition link relative left right target =>
    let value := core.registers.get target
    some (core.branched condition link left right (if relative then core.pc + value else value))
  | .moveToCop source cop cell =>
    (CopRegister.resolve cop cell).toOption.map fun register =>
      { Outcome.nothing with moves := some (register, core.registers.get source) }
  | .moveFromCop dest cop cell => (core.readCop cop cell).toOption.map (.result dest)
  | .syscall immediate => core.serviced? ⟨.syscall, immediate, core.registers⟩
  | .trapLevel _ => none
  | .debug immediate => core.serviced? ⟨.debug, immediate, core.registers⟩
  | .softwareException _ => none
  | .load size dest address => core.loaded? size dest address
  | .store size source address => core.stored? size source address
  | .loadAddress dest address => some (.result dest (.ofInt (address.location core.registers)))
  | .loadImmediate dest immediate shift =>
    some (.result dest (.ofNat (immediate.toNat * 2 ^ (shift.toNat % 32))))
  | .setIf condition dest source immediate =>
    some (.result dest (if condition.test (core.registers.get source) immediate then 1 else 0))
  | .coprocessor _ => some .nothing

/-- An execution that ends as `outcome?` says. It faults where there is no outcome. Where there is
one, it has made the outcome's request to the bus and its call to the host, and all else that it
shows are records of the log. -/
def Agrees (core : Core) (outcome? : Option Outcome) (execution : Traced Execution) : Prop :=
  match outcome? with
  | none => execution.value.fault.isSome = true
  | some outcome =>
    execution.value = (core.follow outcome).completed ∧
      ∃ records : List LogRecord,
        execution.events = (core.bus.serve outcome.request).events ++
          core.hostEvents outcome.asks ++ records.map .log

theorem ofInt_natCast (value : Nat) : UInt32.ofInt (value : Int) = UInt32.ofNat value := by
  apply UInt32.toNat_inj.1
  rw [UInt32.ofInt, UInt32.toNat_ofNat', UInt32.toNat_ofNat']
  omega

theorem ofNat_mul_two_pow (word shift : UInt32) :
    UInt32.ofNat (word.toNat * 2 ^ (shift.toNat % 32)) = word <<< shift := by
  apply UInt32.toNat_inj.1
  rw [UInt32.toNat_ofNat', UInt32.toNat_shiftLeft, Nat.shiftLeft_eq]

section Assignment

variable (file : RegisterFile)

theorem assign_nothing : file.assign Outcome.nothing.assigns = file := by
  apply RegisterFile.ext_get
  intro register
  rw [RegisterFile.get_assign]
  rfl

theorem assign_result (dest : Register) (value : UInt32) :
    file.assign (Outcome.result dest value).assigns = file.set dest value := by
  apply RegisterFile.ext_get
  intro register
  rw [RegisterFile.get_assign, RegisterFile.get_set, Outcome.result]
  by_cases same : register = dest
  · simp [same]
  · simp [same, Ne.symm same]

/-- To write the link first and the program counter after it assigns both at once. -/
theorem assign_jump (target : UInt32) (link : Bool) (back : UInt32) :
    file.assign (Outcome.jump target (if link then some back else none)).assigns =
      (if link then file.set .link back else file).setPc target := by
  apply RegisterFile.ext_get
  intro register
  rw [RegisterFile.get_assign, RegisterFile.setPc, RegisterFile.get_set, Outcome.jump]
  by_cases counter : register = .programCounter
  · simp [counter]
  · simp only [counter, Ne.symm counter, ↓reduceIte]
    cases link with
    | false => simp
    | true =>
      simp only [↓reduceIte, RegisterFile.get_set]
      by_cases saved : register = .link
      · simp [saved]
      · simp [saved, Ne.symm saved]

end Assignment

@[simp] theorem follow_nothing (core : Core) : core.follow .nothing = core := by
  rw [follow, assign_nothing]
  simp [Outcome.nothing, Bus.serve]

theorem follow_result (core : Core) (dest : Register) (value : UInt32) :
    core.follow (.result dest value) = (core.writeRegister dest value).value := by
  rw [follow, assign_result, value_writeRegister]
  by_cases same : dest = .programCounter
  · simp [Outcome.result, Outcome.nothing, Bus.serve, same]
  · simp [Outcome.result, Outcome.nothing, Bus.serve, same, Ne.symm same]

theorem follow_jump (core : Core) (target : UInt32) (link : Bool) :
    core.follow (.jump target (if link then some core.pc else none)) =
      { core with
        registers := (if link then core.registers.set .link core.pc else core.registers).setPc target
        pipeline := core.pipelineAfterTransfer } := by
  rw [follow, assign_jump]
  simp [Outcome.jump, Outcome.nothing, Bus.serve]

theorem follow_moves (core : Core) (register : CopRegister) (value : UInt32) :
    core.follow { Outcome.nothing with moves := some (register, value) } =
      core.setCell register value := by
  rw [follow, assign_nothing, setCell_eq]
  simp [Outcome.nothing, Bus.serve]

theorem follow_request (core : Core) (request : BusRequest) :
    core.follow { Outcome.nothing with request := some request } =
      { core with bus := (core.bus.serve (some request)).value } := by
  rw [follow, assign_nothing]
  simp [Outcome.nothing]

theorem follow_asks {core : Core} {host : Host} (present : core.host = some host)
    (request : HookCall) (halts : Bool) :
    core.follow { Outcome.nothing with asks := some request, halts := halts } =
      { core with host := some (host.asked request), halted := core.halted || halts } := by
  rw [follow, assign_nothing]
  simp [Outcome.nothing, Bus.serve, present]

theorem ofInt_toNat (word : UInt32) : UInt32.ofInt word.toNat = word := by
  rw [ofInt_natCast, UInt32.ofNat_toNat]

/-- Addresses may wrap at the end only, however often they wrap on the way. -/
theorem effectiveAddress_eq (core : Core) (address : Address) :
    core.effectiveAddress address = .ofInt (address.location core.registers) := by
  have amount : UInt32.ofInt (address.offset.amount core.registers) =
      match address.offset with
      | .scaled index scale => core.registers.get index * scale
      | .shifted index shift => core.registers.get index <<< shift
      | .fixed immediate => immediate := by
    cases address.offset with
    | scaled index scale =>
      rw [Offset.amount, ofInt_natCast, UInt32.ofNat_mul, UInt32.ofNat_toNat, UInt32.ofNat_toNat]
    | shifted index shift => rw [Offset.amount, ofInt_natCast, ofNat_mul_two_pow]
    | fixed immediate => exact ofInt_toNat immediate
  rw [effectiveAddress, Address.location]
  split
  · rw [Int.sub_eq_add_neg, UInt32.ofInt_add, UInt32.ofInt_neg, ofInt_toNat,
      ← UInt32.sub_eq_add_neg]
    exact congrArg (core.registers.get address.base - ·) amount.symm
  · rw [UInt32.ofInt_add, ofInt_toNat]
    exact congrArg (core.registers.get address.base + ·) amount.symm

theorem exists_records_flushOnTransfer (core : Core) :
    ∃ records : List LogRecord, core.flushOnTransfer.events = records.map .log := by
  unfold flushOnTransfer
  split
  · exact ⟨[.pipelineFlushed], rfl⟩
  · exact ⟨[], rfl⟩

theorem exists_records_deliver (core : Core) (dest : Register) (value : UInt32) :
    ∃ records : List LogRecord, (core.deliver dest value).events = records.map .log := by
  simp only [deliver, writeRegister, Traced.events_bind, Traced.events_pure, List.append_nil]
  split
  · exact exists_records_flushOnTransfer _
  · exact ⟨[], rfl⟩

theorem deliver_agrees (core : Core) (dest : Register) (value : UInt32) :
    core.Agrees (some (.result dest value)) (core.deliver dest value) := by
  constructor
  · rw [follow_result]
    rfl
  · exact core.exists_records_deliver dest value

theorem executeAlu_agrees (core : Core) (op : AluOp) (dest : Register) (left right : UInt32) :
    core.Agrees ((core.aluValue? op dest left right).map (.result dest))
      (core.executeAlu op dest left right) := by
  have accumulates : op.apply (if op = .mla then core.registers.get dest else 0) left right =
      op.apply (core.registers.get dest) left right := by
    cases op <;> rfl
  rw [aluValue?, accumulates, executeAlu]
  cases op.apply (core.registers.get dest) left right with
  | error _ => rfl
  | ok result => exact core.deliver_agrees dest result

theorem executeBranch_agrees (core : Core) (condition : Condition) (link : Bool)
    (left right : Register) (target : UInt32 → UInt32) :
    core.Agrees (some (core.branched condition link left right (target core.pc)))
      (core.executeBranch condition link left right target) := by
  unfold executeBranch branched
  split
  · constructor
    · rw [follow_jump, Traced.value_bind, value_flushOnTransfer]
      rfl
    · simp only [Traced.events_bind, Traced.events_pure, List.append_nil]
      exact exists_records_flushOnTransfer _
  · exact ⟨congrArg completed core.follow_nothing.symm, [], rfl⟩

theorem executeHook_agrees (core : Core) (kind : HookKind) (immediate : UInt32)
    (exception : Exception) :
    core.Agrees (core.serviced? ⟨kind, immediate, core.registers⟩)
      (core.executeHook kind immediate exception) := by
  unfold serviced? executeHook
  cases present : core.host with
  | none => rfl
  | some host =>
    have shown : core.hostEvents (some ⟨kind, immediate, core.registers⟩) =
        (host.call ⟨kind, immediate, core.registers⟩).events := by
      rw [hostEvents, present]
      rfl
    simp only [Option.bind_some]
    cases decided : host.decides ⟨kind, immediate, core.registers⟩ with
    | raise =>
      have action : (host.call ⟨kind, immediate, core.registers⟩).value.1 = .raise := decided
      simp only [Agrees, Traced.value_bind, action]
      rfl
    | resume =>
      have action : (host.call ⟨kind, immediate, core.registers⟩).value.1 = .resume := decided
      constructor
      · simp only [Traced.value_bind, action]
        have followed := follow_asks present ⟨kind, immediate, core.registers⟩ false
        rw [Bool.or_false] at followed
        exact congrArg completed followed.symm
      · refine ⟨[], ?_⟩
        simp only [Traced.events_bind, action, shown]
        rfl
    | halt =>
      have action : (host.call ⟨kind, immediate, core.registers⟩).value.1 = .halt := decided
      constructor
      · simp only [Traced.value_bind, action]
        have followed := follow_asks present ⟨kind, immediate, core.registers⟩ true
        rw [Bool.or_true] at followed
        exact congrArg completed followed.symm
      · refine ⟨[.coreHalted core.cycles], ?_⟩
        simp only [Traced.events_bind, action, shown]
        rfl

theorem executeLoad_agrees (core : Core) (size : AccessSize) (dest : Register)
    (address : Address) :
    core.Agrees (core.loaded? size dest address) (core.executeLoad size dest address) := by
  unfold executeLoad loaded?
  rw [effectiveAddress_eq]
  cases core.mmu.translate (.ofInt (address.location core.registers)) size .read with
  | error fault => rfl
  | ok physical =>
    let loaded : Core := { core with bus := (core.bus.read physical size).value.2 }
    let value := (core.bus.read physical size).value.1
    obtain ⟨records, shown⟩ := loaded.exists_records_deliver dest value
    constructor
    · have followed := loaded.follow_result dest value
      exact congrArg completed followed.symm
    · refine ⟨records, ?_⟩
      change _ ++ [] ++ (loaded.deliver dest value).events = _ ++ [] ++ [] ++ records.map .log
      rw [shown, List.append_nil, List.append_nil]

theorem executeStore_agrees (core : Core) (size : AccessSize) (source : Register)
    (address : Address) :
    core.Agrees (core.stored? size source address) (core.executeStore size source address) := by
  unfold executeStore stored?
  rw [effectiveAddress_eq]
  cases core.mmu.translate (.ofInt (address.location core.registers)) size .write with
  | error fault => rfl
  | ok physical =>
    constructor
    · have followed := core.follow_request (.write physical (core.registers.get source) size)
      exact congrArg completed followed.symm
    · refine ⟨[], ?_⟩
      simp only [writePhysical, Traced.events_bind, Traced.events_pure, List.append_nil]
      change _ = _ ++ [] ++ []
      rw [List.append_nil, List.append_nil]
      rfl

theorem execute_agrees (core : Core) (instruction : Instruction) :
    core.Agrees (core.outcome? instruction) (core.execute instruction) := by
  cases instruction with
  | aluRegister op dest left right => exact core.executeAlu_agrees op dest _ _
  | aluImmediate op dest immediate => exact core.executeAlu_agrees op dest _ _
  | branch condition link left right distance =>
    exact core.executeBranch_agrees condition link left right fun pc => pc + distance.toUInt32
  | branchRegister condition link relative left right target =>
    let value := core.registers.get target
    exact core.executeBranch_agrees condition link left right fun pc =>
      if relative then pc + value else value
  | moveToCop source cop cell =>
    simp only [outcome?, execute, writeCop]
    cases resolved : CopRegister.resolve cop cell with
    | error _ => rfl
    | ok register => exact ⟨congrArg completed (core.follow_moves register _).symm, [], rfl⟩
  | moveFromCop dest cop cell =>
    simp only [outcome?, execute]
    cases core.readCop cop cell with
    | error _ => rfl
    | ok value => exact core.deliver_agrees dest value
  | syscall immediate => exact core.executeHook_agrees _ _ _
  | trapLevel level => rfl
  | debug immediate => exact core.executeHook_agrees _ _ _
  | softwareException immediate => rfl
  | load size dest address => exact core.executeLoad_agrees size dest address
  | store size source address => exact core.executeStore_agrees size source address
  | loadAddress dest address =>
    rw [outcome?, ← effectiveAddress_eq]
    exact core.deliver_agrees dest _
  | loadImmediate dest immediate shift =>
    rw [outcome?, ofNat_mul_two_pow]
    exact core.deliver_agrees dest _
  | setIf condition dest source immediate => exact core.deliver_agrees dest _
  | coprocessor word =>
    exact ⟨congrArg completed core.follow_nothing.symm, [.coprocessorIgnored word], rfl⟩

/-- A taken branch jumps to its target, wherever its link register occurs among its operands. -/
theorem settled_of_takesBranch {core : Core} {instruction : Instruction}
    (taken : core.takesBranch instruction = true) :
    ∃ target, instruction.target? core.registers = some target ∧
      (core.execute instruction).value.settled =
        core.follow (.jump target (if instruction.links then some core.pc else none)) := by
  have agrees := core.execute_agrees instruction
  cases instruction with
  | branch condition link left right distance =>
    refine ⟨_, rfl, ?_⟩
    simp only [takesBranch] at taken
    simp only [Agrees, outcome?, branched, taken, ↓reduceIte] at agrees
    rw [agrees.1]
    rfl
  | branchRegister condition link relative left right target =>
    refine ⟨_, rfl, ?_⟩
    simp only [takesBranch] at taken
    simp only [Agrees, outcome?, branched, taken, ↓reduceIte] at agrees
    rw [agrees.1]
    rfl
  | _ => cases taken

/-- An instruction completes exactly if it has an outcome. Then the core is the outcome put into
effect, and its only access to the bus is the outcome's request. -/
theorem execute_follows_outcome (core : Core) (instruction : Instruction) :
    ((core.execute instruction).value.fault = none ↔
      (core.outcome? instruction).isSome = true) ∧
    ∀ outcome, core.outcome? instruction = some outcome →
      (core.execute instruction).value.core = core.follow outcome ∧
      ∃ records : List LogRecord,
        (core.execute instruction).events = (core.bus.serve outcome.request).events ++
          core.hostEvents outcome.asks ++ records.map .log := by
  have agrees := core.execute_agrees instruction
  cases found : core.outcome? instruction with
  | none =>
    rw [found] at agrees
    have faults : (core.execute instruction).value.fault ≠ none :=
      Option.isSome_iff_ne_none.1 agrees
    refine ⟨⟨fun completes => absurd completes faults, ?_⟩, ?_⟩
    · intro settled
      cases settled
    · intro outcome same
      cases same
  | some outcome =>
    rw [found] at agrees
    obtain ⟨ends, shows⟩ := agrees
    have completes : (core.execute instruction).value.fault = none := by
      rw [ends]
      rfl
    refine ⟨⟨fun _ => rfl, fun _ => completes⟩, ?_⟩
    intro other same
    cases same
    exact ⟨congrArg Execution.core ends, shows⟩

def callingBack : Core :=
  let registers := RegisterFile.cleared.set .link 0x40
  { create 0 .empty with registers := registers.setPc 0x100 }

/-- The branch goes by the old value of the link register, which it replaces. -/
theorem callingBack_follows :
    callingBack.outcome? (.branchRegister .eq true true .link .link .link) =
        some (.jump 0x140 (some 0x100)) ∧
      (callingBack.execute (.branchRegister .eq true true .link .link .link)).value.core =
        callingBack.follow (.jump 0x140 (some 0x100)) := by
  have jumps : callingBack.outcome? (.branchRegister .eq true true .link .link .link) =
      some (.jump 0x140 (some 0x100)) := rfl
  exact ⟨jumps, ((execute_follows_outcome _ _).2 _ jumps).1⟩

end Core

end RiscBoard
