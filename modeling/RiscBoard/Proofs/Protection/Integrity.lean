import RiscBoard.Proofs.Bus.Access
import RiscBoard.Proofs.Core.VirtualMemory
import RiscBoard.Proofs.Mmu.Insertion

/-!
Integrity of memory. While virtual memory stays as it is, a program changes no byte but those that the
active table opens to writes, whatever it does: an access is checked at its first address, goes to the
device that has this address, and stays in the memory of its entry with all of its bytes.
-/

namespace RiscBoard

namespace Bus

/-- Every memory of a bus is there later: ROM as it was, and RAM with the same bytes at all addresses
that are not open. -/
structure KeepsOutside (isOpen : UInt32 → Prop) (bus later : Bus) : Prop where
  ram : ∀ (index : Nat) (memory : Ram), bus.memory[index]? = some (.ram memory) →
    ∃ kept : Ram, later.memory[index]? = some (.ram kept) ∧ kept.range = memory.range ∧
      ∀ offset < memory.size, ¬ isOpen (memory.range.addressAt offset) →
        kept.contents.byteAt offset = memory.contents.byteAt offset
  rom : ∀ (index : Nat) (memory : Rom), bus.memory[index]? = some (.rom memory) →
    later.memory[index]? = some (.rom memory)

namespace KeepsOutside

variable {isOpen : UInt32 → Prop} {bus later last : Bus}

theorem of_sameMemory (same : bus.SameMemory later) : bus.KeepsOutside isOpen later := by
  constructor
  · intro index memory placed
    exact ⟨memory, (same index _ rfl).2 placed, rfl, fun _ _ _ => rfl⟩
  · intro index memory placed
    exact (same index _ rfl).2 placed

theorem refl (bus : Bus) : bus.KeepsOutside isOpen bus :=
  of_sameMemory fun _ _ _ => Iff.rfl

theorem trans (first : bus.KeepsOutside isOpen later) (second : later.KeepsOutside isOpen last) :
    bus.KeepsOutside isOpen last := by
  constructor
  · intro index memory placed
    obtain ⟨middle, middlePlaced, middleRange, middleBytes⟩ := first.ram index memory placed
    obtain ⟨kept, keptPlaced, keptRange, keptBytes⟩ := second.ram index middle middlePlaced
    have sameSize : middle.size = memory.size := Ram.contents_size_of_range middleRange
    refine ⟨kept, keptPlaced, keptRange.trans middleRange, ?_⟩
    intro offset inside closed
    rw [← middleBytes offset inside closed]
    rw [← middleRange] at closed
    rw [← sameSize] at inside
    exact keptBytes offset inside closed
  · intro index memory placed
    exact second.rom index memory (first.rom index memory placed)

/-- A write all of whose bytes are open keeps the rest. -/
theorem write {address value : UInt32} {size : AccessSize}
    (allOpen : ∀ distance < size.bytes, isOpen (address + UInt32.ofNat distance)) :
    bus.KeepsOutside isOpen (bus.write address value size).value := by
  constructor
  · intro index memory placed
    by_cases goes : bus.target? address = some index
    · refine ⟨memory.write (address - memory.range.start) (size.truncate value) size, ?_, rfl, ?_⟩
      · rw [getElem?_write, if_pos goes, placed]
        rfl
      · intro offset _ closed
        rw [Ram.contents_write, Contents.byteAt_write_of_outside]
        rintro distance inside rfl
        rw [AddressRange.addressAt_offset] at closed
        exact closed (allOpen distance inside)
    · refine ⟨memory, ?_, rfl, fun _ _ _ => rfl⟩
      rw [getElem?_write, if_neg goes, placed]
  · intro index memory placed
    rw [getElem?_write, placed]
    split
    · rfl
    · rfl

end KeepsOutside

end Bus

namespace Core

theorem Effect.keepsOutside {core : Core} {instruction : Instruction} {execution : Execution}
    (effect : Effect core instruction execution) (confines : core.mmu.Confines) :
    core.bus.KeepsOutside (core.mmu.Reaches .write) execution.settled.bus := by
  cases effect with
  | refused fault =>
    rw [Execution.settled_faulted, value_raise]
    exact .refl core.bus
  | raised host request fault present decided seen =>
    rw [Execution.settled_faulted, value_raise]
    exact .refl core.bus
  | resumed host request present decided seen stays => exact .refl core.bus
  | stopped host request present decided seen stays => exact .refl core.bus
  | idle stays => exact .refl core.bus
  | branched linked target saved taken => exact .refl core.bus
  | movedToCop source cop cell register is resolved =>
    rw [Execution.settled_completed, setCell_eq]
    exact .refl core.bus
  | stored size source address physical is translated =>
    exact .write fun distance inside => confines.reaches_of_translate translated inside
  | loaded size dest address physical is translated =>
    rw [Execution.settled_completed, value_writeRegister]
    exact .of_sameMemory (core.bus.sameMemory_read physical size)
  | delivered dest value target =>
    rw [Execution.settled_completed, value_writeRegister]
    exact .refl core.bus

theorem keepsOutside_executeWord {core : Core} (confines : core.mmu.Confines) (word : UInt32) :
    core.bus.KeepsOutside (core.mmu.Reaches .write) (core.executeWord word).value.settled.bus := by
  cases decoded : Instruction.decode word with
  | error error =>
    rw [executeWord_of_undecodable core decoded, Execution.settled_faulted, value_raise]
    exact .refl core.bus
  | ok instruction =>
    rw [executeWord_of_decode core decoded]
    exact (execute_effect core instruction).keepsOutside confines

theorem sameMemory_fetch (core : Core) : core.bus.SameMemory core.fetch.value.bus := by
  cases translated : core.mmu.translate core.pc .exec .execute with
  | error fault =>
    rw [value_fetch_of_fault translated, value_raise]
    exact fun _ _ _ => Iff.rfl
  | ok physical =>
    rw [value_fetch_of_ok translated]
    exact core.bus.sameMemory_read physical .exec

theorem keepsOutside_step {core : Core} (confines : core.mmu.Confines) (steady : core.Steady) :
    core.bus.KeepsOutside (core.mmu.Reaches .write) core.step.value.bus := by
  cases halted : core.halted with
  | true =>
    rw [step_of_halted halted]
    exact .refl core.bus
  | false =>
    have sameMmu := steady.fetch.same
    have performed := keepsOutside_executeWord (sameMmu ▸ confines) core.executing
    rw [sameMmu] at performed
    rw [step_of_running halted]
    exact (Bus.KeepsOutside.of_sameMemory core.sameMemory_fetch).trans performed

/-- A run that leaves virtual memory alone finds it unchanged at its end, and has changed no byte
outside of what the active table opens to writes. -/
theorem memory_integrity (core : Core) (confines : core.mmu.Confines) (steady : core.Steady)
    (count : Nat) (leaves : core.LeavesMmu count) :
    (core.after count).mmu = core.mmu ∧
      core.bus.KeepsOutside (core.mmu.Reaches .write) (core.after count).bus := by
  induction count with
  | zero => exact ⟨rfl, .refl core.bus⟩
  | succ count ih =>
    obtain ⟨earlier, last⟩ := leaves.last
    have kept := steady.after earlier
    obtain ⟨same, outside⟩ := ih earlier
    have next := keepsOutside_step (same ▸ confines) kept.steady
    rw [same] at next
    rw [after_succ_last]
    exact ⟨(kept.trans (kept.steady.step last)).same, outside.trans next⟩

/-- A core that stores to the last word of a mapping of eight bytes and then past its end. Its code is
in ROM, and the memory of the mapping lies in the middle of a RAM. -/
def storing : Core :=
  let code := Bytes.ofWords [0x88408000, 0x8042024c, 0x8042044c]
  let bus := match Ram.create 0x100 16 with
    | .ok memory => { Bus.ofImage code with memory := (Bus.ofImage code).memory.push (.ram memory) }
    | .error _ => .empty
  let table := MappingTable.ofList [⟨0, 0, 64, 1⟩, ⟨0x104, 0x200, 8, 6⟩]
  { create 0 bus with mmu := { Mmu.cleared with control := ⟨0x801⟩ }.setActiveTable table }

theorem storing_integrity :
    storing.LeavesMmu 5 ∧ storing.bus.KeepsOutside (storing.mmu.Reaches .write) (storing.after 5).bus ∧
      (storing.after 5).trap.cause = Exception.noMapping.code := by
  have confines : storing.mmu.Confines := ⟨by decide, by decide, by decide +kernel⟩
  have steady : storing.Steady := .inl rfl
  have leaves : storing.LeavesMmu 5 := by decide +kernel
  exact ⟨leaves, (memory_integrity storing confines steady 5 leaves).2, by decide +kernel⟩

end Core

end RiscBoard
