import RiscBoard.Proofs.Board.Arrangement
import RiscBoard.Proofs.Core.Pristine

/-!
What a reset of a board restores. The devices of a board stay where they are and their images stay as
they are, so that a reset leads back to the board as it was made, except for the host and the port
devices, which were added later and are left alone.
-/

namespace RiscBoard

inductive BoardOperation where
  | tick
  | reset
  | loadPhysical (address : UInt32) (buffer : ByteArray)
  | attachPorts (device : PortDevice)
  | onCore (operation : CoreOperation)

namespace MemoryDevice

theorem map_modifyRam_reset {found : Option MemoryDevice} {memory : Ram}
    (clear : memory.reset = memory) (was : found.map blank = some (MemoryDevice.ram memory).blank) :
    found.map (·.modifyRam Ram.reset) = some (.ram memory) := by
  obtain ⟨device, rfl, same⟩ := Option.map_eq_some_iff.1 was
  rw [blank, clear] at same
  cases device with
  | ram current => exact congrArg some same
  | rom current => cases same
  | peripheral range behaviour => cases same

theorem eq_of_blank_rom {device : MemoryDevice} {memory : Rom} (was : device.blank = .rom memory) :
    device = .rom memory := by
  cases device with
  | ram current => cases was
  | rom current => exact was
  | peripheral range behaviour => cases was

end MemoryDevice

namespace Board

def operate (board : Board) : BoardOperation → Traced Board
  | .tick => board.tick
  | .reset => pure board.reset
  | .loadPhysical address buffer => board.loadPhysical address buffer
  | .attachPorts device => board.attachPorts device
  | .onCore operation => do
    let core ← board.core.operate operation
    pure { board with core := core }

def operateAll (board : Board) : List BoardOperation → Traced Board
  | [] => pure board
  | operation :: later => do
    let next ← board.operate operation
    next.operateAll later

def pristine (board : Board) : Board := { board with core := board.core.pristine }

/-- The board with this host and these port devices, in whatever state they are. -/
def equipped (board : Board) (host : Option Host) (ports : Array PortDevice) : Board :=
  { board with
    core := { board.core with host := host, bus := { board.core.bus with ports := ports } } }

def equipment (host : Option Host) (ports : Array PortDevice) : List BoardOperation :=
  (host.map fun present => .onCore (.installHost present)).toList ++
    ports.toList.map .attachPorts

section Pristine

variable (board : Board)

theorem blank_changeDevice (bus : Bus) (index start size : Nat) {change : Nat → Nat → Ram → Ram}
    (keeps : ∀ low high memory, (change low high memory).range = memory.range) :
    (changeDevice bus index start size change).value.blank = bus.blank := by
  rw [value_changeDevice_eq]
  exact bus.blank_modifyRam index fun memory => Ram.range_changeWithin keeps memory start size

theorem pristine_loadPhysical (address : UInt32) (buffer : ByteArray) :
    (board.loadPhysical address buffer).value.pristine = board.pristine := by
  have same : (board.loadPhysical address buffer).value.core.pristine = board.core.pristine :=
    Core.pristine_eq rfl ((blank_changeDevice _ biosRamIndex _ _ fun _ _ _ => Ram.range_load ..).trans
      (blank_changeDevice _ memoryIndex _ _ fun _ _ _ => Ram.range_load ..))
  rw [pristine, pristine, same]
  rfl

theorem pristine_reset : board.reset.pristine = board.pristine := by
  have keeps : ∀ memory : Ram, memory.reset.range = memory.range := fun _ => rfl
  have same : board.reset.core.pristine = board.core.pristine := Core.pristine_eq rfl
    ((Bus.blank_modifyRam _ biosRamIndex keeps).trans (Bus.blank_modifyRam _ memoryIndex keeps))
  rw [pristine, pristine, same]
  rfl

theorem pristine_operate (operation : BoardOperation) :
    (board.operate operation).value.pristine = board.pristine := by
  cases operation with
  | tick => exact congrArg (fun core => { board with core := core }) board.core.pristine_step
  | reset => exact board.pristine_reset
  | loadPhysical address buffer => exact board.pristine_loadPhysical address buffer
  | attachPorts device => rfl
  | onCore operation =>
    exact congrArg (fun core => { board with core := core }) (board.core.pristine_operate operation)

theorem pristine_operateAll (operations : List BoardOperation) :
    (board.operateAll operations).value.pristine = board.pristine := by
  induction operations generalizing board with
  | nil => rfl
  | cons operation later ih => exact (ih _).trans (board.pristine_operate operation)

end Pristine

section Reset

variable {config : BoardConfig} {board made : Board} {memory biosRam : Ram} {bios : Option Rom}
  {window : AddressRange}

/-- Clearing the two memories makes devices those of a new board, if they are blank like them. -/
theorem devices_of_blank {present : Array MemoryDevice} (memoryClear : memory.reset = memory)
    (biosRamClear : biosRam.reset = biosRam)
    (same : present.map MemoryDevice.blank =
      (devices memory biosRam bios).toArray.map MemoryDevice.blank) :
    (present.modify memoryIndex (·.modifyRam Ram.reset)).modify biosRamIndex
      (·.modifyRam Ram.reset) = (devices memory biosRam bios).toArray := by
  apply Array.ext_getElem?
  intro index
  have was := congrArg (·[index]?) same
  simp only [Array.getElem?_map, List.getElem?_toArray] at was
  simp only [Array.getElem?_modify, List.getElem?_toArray]
  match index with
  | 0 => exact MemoryDevice.map_modifyRam_reset memoryClear was
  | 1 => exact MemoryDevice.map_modifyRam_reset biosRamClear was
  | index + 2 =>
    have fresh : (devices memory biosRam bios)[index + 2]? =
      (bios.map MemoryDevice.rom).toList[index]? := rfl
    rw [fresh] at was ⊢
    change present[index + 2]? = _
    cases bios with
    | none => exact Option.map_eq_none_iff.1 was
    | some rom =>
      cases index with
      | zero =>
        obtain ⟨device, placed, blank⟩ := Option.map_eq_some_iff.1 was
        rw [placed, MemoryDevice.eq_of_blank_rom blank]
        rfl
      | succ index => exact Option.map_eq_none_iff.1 was

/-- A reset leads back to the new board, with the host and the port devices that there are now. -/
theorem Assembled.reset_eq (assembled : Assembled config made memory biosRam bios window)
    (same : board.pristine = made.pristine) :
    board.reset = made.equipped board.core.host board.core.bus.ports := by
  have range : board.memoryRange = made.memoryRange := congrArg (·.memoryRange) same
  have size : board.biosSize = made.biosSize := congrArg (·.biosSize) same
  have vector : board.core.resetVector = made.core.resetVector :=
    congrArg (·.core.resetVector) same
  have bus : board.core.bus.blank = made.core.bus.blank := congrArg (·.core.bus) same
  rw [assembled.together] at range size vector bus ⊢
  have opened : board.core.bus.window = some window := congrArg (·.window) bus
  have cleared := devices_of_blank (Ram.range_and_reset_of_create assembled.memoryMade).2
    (Ram.range_and_reset_of_create assembled.biosRamMade).2 (congrArg (·.memory) bus)
  have restored : (board.core.bus.modifyRam memoryIndex Ram.reset).modifyRam biosRamIndex Ram.reset =
      ⟨some window, board.core.bus.ports, (devices memory biosRam bios).toArray⟩ := by
    rw [← opened, ← cleared]
    rfl
  simp only [reset, Core.reset, Core.create, restored, range, size, vector, equipped]

theorem operateAll_append (board : Board) (first later : List BoardOperation) :
    board.operateAll (first ++ later) = (do
      let next ← board.operateAll first
      next.operateAll later) := by
  induction first generalizing board with
  | nil => exact (pure_bind _ _).symm
  | cons operation first ih =>
    simp only [List.cons_append, operateAll, bind_assoc, ih]

theorem value_attachPorts (board : Board) (device : PortDevice) :
    (board.attachPorts device).value =
      board.equipped board.core.host (board.core.bus.ports.push device) := rfl

theorem value_attachAll (board : Board) (added : List PortDevice) :
    (board.operateAll (added.map .attachPorts)).value =
      board.equipped board.core.host (board.core.bus.ports ++ added.toArray) := by
  induction added generalizing board with
  | nil => simp [operateAll, equipped]
  | cons device added ih =>
    simp only [List.map_cons, operateAll, Traced.value_bind, operate, value_attachPorts, ih]
    simp [equipped]

theorem Assembled.value_equipment
    (assembled : Assembled config made memory biosRam bios window) (host : Option Host)
    (ports : Array PortDevice) :
    (made.operateAll (equipment host ports)).value = made.equipped host ports := by
  rw [equipment, operateAll_append, Traced.value_bind, value_attachAll, assembled.together]
  cases host with
  | none => simp [operateAll, Core.create, equipped]
  | some host => simp [operateAll, operate, Core.operate, Core.create, equipped]

end Reset

/-- Whatever has happened to a board, a reset makes it the new board with the host and the port
devices as they are. So from there on it behaves as a new board that was given these, and another reset
changes nothing. -/
theorem reset_complete {config : BoardConfig} {made : Traced Board}
    (accepted : create config = .ok made) (operations : List BoardOperation) :
    let board := (made.value.operateAll operations).value
    let host := board.core.host
    let ports := board.core.bus.ports
    board.reset = made.value.equipped host ports ∧
      (∀ later, board.reset.operateAll later =
        (made.value.operateAll (equipment host ports)).value.operateAll later) ∧
      board.reset.reset = board.reset := by
  intro board host ports
  obtain ⟨memory, biosRam, bios, window, assembled⟩ := assembled_of_create accepted
  have same : board.pristine = made.value.pristine := made.value.pristine_operateAll operations
  have restored : board.reset = made.value.equipped host ports := assembled.reset_eq same
  refine ⟨restored, fun later => ?_, ?_⟩
  · rw [restored, assembled.value_equipment host ports]
  · have sameAgain : board.reset.pristine = made.value.pristine := board.pristine_reset.trans same
    rw [assembled.reset_eq sameAgain]
    exact restored.symm

def countingConfig : BoardConfig :=
  { BoardConfig.standard with
    memorySize := 0x4000, bios := some (Bytes.ofWords [0x88400080, 0x00801000, 0x7d000000]) }

def bootAndChange : List BoardOperation :=
  [.attachPorts ⟨[0x10], .latch 7⟩, .onCore (.installHost .silent),
    .loadPhysical 0x80000000 (Bytes.ofWords [0x01020304]), .tick, .tick, .tick, .tick, .tick,
    .onCore (.writeBus 0x00080002 0xffffffff .long), .onCore (.writeBus 0x00040010 9 .byte),
    .onCore (.setPrivilege .level2)]

theorem bootAndChange_reset :
    ∃ made, create countingConfig = .ok made ∧
      let board := (made.value.operateAll bootAndChange).value
      (board.core.registers.get 2 = 2 ∧ board.core.privilege = .level2 ∧
        (board.core.bus.read 0x00080002 .long).value.1 = 0xffffffff ∧
        (board.reset.core.bus.read 0x00080002 .long).value.1 = 0 ∧
        (board.reset.core.bus.read 0x00040010 .byte).value.1 = 9) ∧
      board.reset = made.value.equipped board.core.host board.core.bus.ports ∧
        board.reset.reset = board.reset := by
  have changes : (create countingConfig).toOption.any (fun made =>
      let board := (made.value.operateAll bootAndChange).value
      decide (board.core.registers.get 2 = 2 ∧ board.core.privilege = .level2 ∧
        (board.core.bus.read 0x00080002 .long).value.1 = 0xffffffff ∧
        (board.reset.core.bus.read 0x00080002 .long).value.1 = 0 ∧
        (board.reset.core.bus.read 0x00040010 .byte).value.1 = 9)) = true := by
    decide +kernel
  obtain ⟨made, accepted, changes⟩ := exists_of_any changes
  obtain ⟨restored, -, again⟩ := reset_complete accepted bootAndChange
  exact ⟨made, accepted, of_decide_eq_true changes, restored, again⟩

end Board

end RiscBoard
