import RiscBoard.Proofs.Bus.Agreement
import RiscBoard.Proofs.Core.Environment
import RiscBoard.Proofs.Core.VirtualMemory
import RiscBoard.Proofs.Mmu.Insertion

/-!
Confidentiality of memory. Two cores that differ only in bytes that the active table opens neither to
reads nor to fetches cannot tell that they differ: after any number of cycles they still differ only in
such bytes. Stores do not matter here, because equal cores store equal values.
-/

namespace RiscBoard

/-- Hosts that decide alike about everything that may be asked from now on. -/
def Host.DecidesLike (host other : Host) : Prop :=
  ∀ later : List HookCall, other.answer (later ++ other.calls) = host.answer (later ++ host.calls)

theorem Host.DecidesLike.asked {host other : Host} (like : host.DecidesLike other)
    (request : HookCall) : (host.asked request).DecidesLike (other.asked request) := by
  intro later
  have same := like (later ++ [request])
  simp only [List.append_assoc, List.singleton_append] at same
  exact same

def Mmu.Readable (mmu : Mmu) (physical : UInt32) : Prop :=
  mmu.Reaches .read physical ∨ mmu.Reaches .execute physical

instance (mmu : Mmu) (physical : UInt32) : Decidable (mmu.Readable physical) :=
  inferInstanceAs (Decidable (_ ∨ _))

namespace Core

/-- Two cores that differ in their environment only, and there only in what programs cannot see: how
hosts come to their decisions, and the bytes that are not visible. -/
structure Alike (visible : UInt32 → Prop) (core other : Core) : Prop where
  state : other = { core with host := other.host, bus := other.bus }
  hosts : Option.Rel Host.DecidesLike core.host other.host
  memory : core.bus.AgreesOn visible other.bus

end Core

structure Execution.Alike (visible : UInt32 → Prop) (execution other : Execution) : Prop where
  core : execution.core.Alike visible other.core
  fault : other.fault = execution.fault

namespace Core

variable {visible : UInt32 → Prop} {core other : Core}

namespace Alike

theorem of_within {host : Option Host} {bus : Bus}
    (hosts : Option.Rel Host.DecidesLike core.host host)
    (memory : core.bus.AgreesOn visible bus) : core.Alike visible (core.within host bus) :=
  ⟨rfl, hosts, memory⟩

theorem eq_within (alike : core.Alike visible other) :
    other = core.within other.host other.bus :=
  alike.state

/-- A change that does not see the environment and leaves it keeps cores alike. -/
theorem changed (alike : core.Alike visible other) {later : Core} (host : later.host = core.host)
    (bus : later.bus = core.bus) : later.Alike visible (later.within other.host other.bus) := by
  apply of_within
  · rw [host]
    exact alike.hosts
  · rw [bus]
    exact alike.memory

theorem raise (alike : core.Alike visible other) (exception : Exception) :
    (core.raise exception).value.Alike visible (other.raise exception).value := by
  rw [alike.eq_within, raise_within]
  apply alike.changed
  · rw [value_raise]
  · rw [value_raise]

theorem deliver (alike : core.Alike visible other) (dest : Register) (value : UInt32) :
    (core.deliver dest value).value.Alike visible (other.deliver dest value).value := by
  rw [alike.eq_within, deliver_within]
  refine ⟨alike.changed ?_ ?_, rfl⟩
  · simp only [Core.deliver, Traced.value_bind, value_writeRegister]
    rfl
  · simp only [Core.deliver, Traced.value_bind, value_writeRegister]
    rfl

theorem readPhysical (alike : core.Alike visible other) {physical : UInt32} {size : AccessSize}
    (seen : ∀ distance < size.bytes, visible (physical + UInt32.ofNat distance)) :
    (other.readPhysical physical size).value.1 = (core.readPhysical physical size).value.1 ∧
      (core.readPhysical physical size).value.2.Alike visible
        (other.readPhysical physical size).value.2 := by
  obtain ⟨kept, otherKept⟩ := alike.memory.bus_read_eq physical size
  rw [value_readPhysical, value_readPhysical, kept, otherKept]
  exact ⟨alike.memory.value_read_eq seen, alike⟩

theorem executeLoad (alike : core.Alike visible other) (confines : core.mmu.Confines)
    (seen : ∀ physical, core.mmu.Reaches .read physical → visible physical) (size : AccessSize)
    (dest : Register) (address : Address) :
    (core.executeLoad size dest address).value.Alike visible
      (other.executeLoad size dest address).value := by
  have sameMmu : other.mmu = core.mmu := by rw [alike.state]
  have samePlace : other.effectiveAddress address = core.effectiveAddress address := by
    rw [alike.state]
    rfl
  unfold Core.executeLoad
  rw [sameMmu, samePlace]
  cases translated : core.mmu.translate (core.effectiveAddress address) size .read with
  | error fault => exact ⟨alike, rfl⟩
  | ok physical =>
    have readable : ∀ distance < size.bytes, visible (physical + UInt32.ofNat distance) :=
      fun distance inside => seen _ (confines.reaches_of_translate translated inside)
    obtain ⟨sameValue, loaded⟩ := alike.readPhysical readable
    simp only [Traced.value_bind, sameValue]
    exact loaded.deliver dest _

theorem executeStore (alike : core.Alike visible other) (size : AccessSize) (source : Register)
    (address : Address) :
    (core.executeStore size source address).value.Alike visible
      (other.executeStore size source address).value := by
  have sameMmu : other.mmu = core.mmu := by rw [alike.state]
  have samePlace : other.effectiveAddress address = core.effectiveAddress address := by
    rw [alike.state]
    rfl
  have sameValue : other.registers.get source = core.registers.get source := by rw [alike.state]
  unfold Core.executeStore
  rw [sameMmu, samePlace, sameValue]
  cases core.mmu.translate (core.effectiveAddress address) size .write with
  | error fault => exact ⟨alike, rfl⟩
  | ok physical =>
    have written := alike.memory.write physical (core.registers.get source) size
    rw [alike.eq_within] at written ⊢
    exact ⟨.of_within alike.hosts written, rfl⟩

theorem answered (alike : core.Alike visible other) {host otherHost : Host}
    (like : host.DecidesLike otherHost) (request : HookCall) (exception : Exception) :
    (core.answered host request exception).Alike visible
      (other.answered otherHost request exception) := by
  have sameDecision : otherHost.decides request = host.decides request := like [request]
  have hosts : Option.Rel Host.DecidesLike (some (host.asked request))
      (some (otherHost.asked request)) := .some (like.asked request)
  unfold Core.answered
  rw [sameDecision, alike.eq_within]
  cases host.decides request with
  | raise => exact ⟨⟨rfl, hosts, alike.memory⟩, rfl⟩
  | resume => exact ⟨⟨rfl, hosts, alike.memory⟩, rfl⟩
  | halt => exact ⟨⟨rfl, hosts, alike.memory⟩, rfl⟩

theorem executeHook (alike : core.Alike visible other) (kind : HookKind) (immediate : UInt32)
    (exception : Exception) :
    (core.executeHook kind immediate exception).value.Alike visible
      (other.executeHook kind immediate exception).value := by
  have sameRegisters : other.registers = core.registers := by rw [alike.state]
  have hosts := alike.hosts
  rw [value_executeHook, value_executeHook, sameRegisters]
  generalize core.host = host at hosts ⊢
  generalize other.host = otherHost at hosts ⊢
  cases hosts with
  | none => exact ⟨alike, rfl⟩
  | some like => exact alike.answered like _ exception

theorem execute (alike : core.Alike visible other) (confines : core.mmu.Confines)
    (seen : ∀ physical, core.mmu.Reaches .read physical → visible physical)
    (instruction : Instruction) :
    (core.execute instruction).value.Alike visible (other.execute instruction).value := by
  cases uses : instruction.usesEnvironment with
  | false =>
    obtain ⟨sameHost, sameBus⟩ := core.environment_execute uses
    rw [alike.eq_within, execute_within core _ _ uses]
    exact ⟨alike.changed sameHost sameBus, rfl⟩
  | true =>
    cases instruction with
    | load size dest address => exact alike.executeLoad confines seen size dest address
    | store size source address => exact alike.executeStore size source address
    | syscall immediate => exact alike.executeHook _ _ _
    | debug immediate => exact alike.executeHook _ _ _
    | _ => cases uses

theorem executeWord (alike : core.Alike visible other) (confines : core.mmu.Confines)
    (seen : ∀ physical, core.mmu.Reaches .read physical → visible physical) (word : UInt32) :
    (core.executeWord word).value.settled.Alike visible (other.executeWord word).value.settled := by
  cases decoded : Instruction.decode word with
  | error error =>
    rw [executeWord_of_undecodable core decoded, executeWord_of_undecodable other decoded]
    exact alike.raise .illegalInstruction
  | ok instruction =>
    obtain ⟨executed, sameFault⟩ := alike.execute confines seen instruction
    rw [executeWord_of_decode core decoded, executeWord_of_decode other decoded,
      Execution.settled, Execution.settled, sameFault]
    cases (core.execute instruction).value.fault with
    | none => exact executed
    | some fault => exact executed.raise fault

theorem fetch (alike : core.Alike visible other) (confines : core.mmu.Confines)
    (seen : ∀ physical, core.mmu.Reaches .execute physical → visible physical) :
    core.fetch.value.Alike visible other.fetch.value := by
  have same : other.mmu.translate other.pc .exec .execute =
      core.mmu.translate core.pc .exec .execute := by
    rw [alike.state]
    rfl
  cases translated : core.mmu.translate core.pc .exec .execute with
  | error fault =>
    rw [translated] at same
    rw [value_fetch_of_fault translated, value_fetch_of_fault same]
    have shifted : { core with pipeline := core.pipeline.shiftIn 0 }.Alike visible
        { other with pipeline := other.pipeline.shiftIn 0 } := by
      rw [alike.eq_within]
      exact .of_within alike.hosts alike.memory
    exact shifted.raise fault
  | ok physical =>
    rw [translated] at same
    have fetchable : ∀ distance < AccessSize.exec.bytes,
        visible (physical + UInt32.ofNat distance) :=
      fun distance inside => seen _ (confines.reaches_of_translate translated inside)
    have sameWord := alike.memory.value_read_eq fetchable
    obtain ⟨kept, otherKept⟩ := alike.memory.bus_read_eq physical .exec
    rw [value_fetch_of_ok translated, value_fetch_of_ok same, sameWord, kept, otherKept,
      alike.eq_within]
    exact .of_within alike.hosts alike.memory

theorem retire (alike : core.Alike visible other) : core.retire.Alike visible other.retire := by
  rw [alike.eq_within]
  exact .of_within alike.hosts alike.memory

theorem step (alike : core.Alike core.mmu.Readable other) (confines : core.mmu.Confines)
    (steady : core.Steady) :
    core.step.value.Alike core.mmu.Readable other.step.value := by
  have sameHalted : other.halted = core.halted := by rw [alike.state]
  cases halted : core.halted with
  | true =>
    rw [halted] at sameHalted
    rw [step_of_halted halted, step_of_halted sameHalted]
    exact alike
  | false =>
    rw [halted] at sameHalted
    have sameMmu := steady.fetch.same
    have fetched := alike.fetch confines fun _ reaches => .inr reaches
    have sameWord : other.executing = core.executing := by
      rw [executing, executing, fetched.state]
    have executed := fetched.executeWord (sameMmu ▸ confines)
      (fun _ reaches => .inl (sameMmu ▸ reaches)) core.executing
    rw [step_of_running halted, step_of_running sameHalted, execution, execution, sameWord]
    exact executed.retire

end Alike

/-- What programs cannot see stays out of everything that they can see. -/
theorem memory_confidential (core other : Core) (confines : core.mmu.Confines)
    (steady : core.Steady) (alike : core.Alike core.mmu.Readable other) (count : Nat)
    (leaves : core.LeavesMmu count) :
    (core.after count).mmu = core.mmu ∧
      (core.after count).Alike core.mmu.Readable (other.after count) := by
  induction count with
  | zero => exact ⟨rfl, alike⟩
  | succ count ih =>
    obtain ⟨earlier, last⟩ := leaves.last
    have kept := steady.after earlier
    obtain ⟨same, before⟩ := ih earlier
    rw [← same] at before
    have next := before.step (same ▸ confines) kept.steady
    rw [same] at next
    rw [after_succ_last, after_succ_last]
    exact ⟨(kept.trans (kept.steady.step last)).same, next⟩

def prying (secret : UInt32) : Core :=
  let code := [0x88400c00, 0x80820044, 0x88404000, 0x8042004c]
  let memory : Ram := ⟨⟨0, 64, by decide, by decide⟩, Contents.zeros 64, rfl⟩
  let filled := memory.load 0 (Bytes.ofWords (code ++ List.replicate 8 0 ++ [secret]))
  let table := MappingTable.ofList [⟨0, 0, 32, 5⟩, ⟨32, 0x100, 8, 2⟩]
  { create 0 { Bus.empty with memory := #[.ram filled] } with
    mmu := { Mmu.cleared with control := ⟨0x801⟩ }.setActiveTable table }

theorem prying_alike : (prying 7).Alike (prying 7).mmu.Readable (prying 9) := by
  refine ⟨rfl, .none, ⟨rfl, rfl, ?_⟩⟩
  intro index
  cases index with
  | zero => exact .some (.ram rfl (by decide +kernel))
  | succ index => exact .none

theorem prying_confidential :
    ((prying 7).bus.read 48 .long).value.1 = 7 ∧ ((prying 9).bus.read 48 .long).value.1 = 9 ∧
      (prying 7).LeavesMmu 8 ∧ ((prying 7).after 8).trap.cause = Exception.noMapping.code ∧
      ((prying 7).after 8).Alike (prying 7).mmu.Readable ((prying 9).after 8) := by
  have confines : (prying 7).mmu.Confines := ⟨by decide, by decide, by decide +kernel⟩
  have leaves : (prying 7).LeavesMmu 8 := by decide +kernel
  refine ⟨by decide +kernel, by decide +kernel, leaves, by decide +kernel, ?_⟩
  exact (memory_confidential (prying 7) (prying 9) confines (.inl rfl) prying_alike 8 leaves).2

end Core

end RiscBoard
