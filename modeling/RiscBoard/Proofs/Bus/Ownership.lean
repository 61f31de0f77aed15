import RiscBoard.Proofs.Bus.Access
import RiscBoard.Proofs.Memory.Words

/-!
Who owns an address. A port belongs to the first attached device that has it, an address outside of the
port window to the first attached memory device whose range it lies in. An access asks its owner, once,
and no other device; where there is no owner a read finds ones and a write does nothing
(`dispatch_by_first_owner`). Devices that are attached later take nothing away from an owner.
-/

namespace RiscBoard

namespace AddressRange

def Holds (range : AddressRange) (address : UInt32) : Prop :=
  range.start.toNat ≤ address.toNat ∧ address.toNat < range.stop

instance (range : AddressRange) (address : UInt32) : Decidable (range.Holds address) :=
  inferInstanceAs (Decidable (_ ∧ _))

theorem contains_iff_holds (range : AddressRange) (address : UInt32) :
    range.contains address = true ↔ range.Holds address :=
  range.contains_iff_toNat address

theorem Holds.toNat_sub {range : AddressRange} {address : UInt32} (holds : range.Holds address) :
    (address - range.start).toNat = address.toNat - range.start.toNat ∧
      address.toNat - range.start.toNat < range.size := by
  obtain ⟨above, below⟩ := holds
  refine ⟨UInt32.toNat_sub_of_le _ _ (UInt32.le_iff_toNat_le.2 above), ?_⟩
  rw [size]
  omega

end AddressRange

namespace Bus

structure FirstOwner {Device : Type} (devices : Array Device) (owns : Device → Prop) (index : Nat)
    (device : Device) : Prop where
  placed : devices[index]? = some device
  has : owns device
  first : ∀ earlier < index, ∀ other, devices[earlier]? = some other → ¬ owns other

section FirstOwner

variable {Device : Type} {devices : Array Device} {owns : Device → Prop} {test : Device → Bool}
  {index : Nat} {device : Device}

theorem FirstOwner.findFinIdx? (owner : FirstOwner devices owns index device)
    (tests : ∀ device, test device = true ↔ owns device) :
    ∃ inside : index < devices.size, devices[index] = device ∧
      devices.findFinIdx? test = some ⟨index, inside⟩ := by
  obtain ⟨inside, same⟩ := Array.getElem?_eq_some_iff.1 owner.placed
  refine ⟨inside, same, Array.findFinIdx?_eq_some_iff.2 ⟨?_, fun earlier before found => ?_⟩⟩
  · rw [tests]
    exact same ▸ owner.has
  · exact owner.first earlier before devices[earlier] (Array.getElem?_eq_getElem earlier.isLt)
      ((tests _).1 found)

theorem findFinIdx?_of_unowned (unowned : ∀ device ∈ devices, ¬ owns device)
    (tests : ∀ device, test device = true ↔ owns device) : devices.findFinIdx? test = none :=
  Array.findFinIdx?_eq_none_iff.2 fun device member found =>
    unowned device member ((tests device).1 found)

theorem exists_firstOwner (tests : ∀ device, test device = true ↔ owns device)
    (owned : ∃ device ∈ devices, owns device) :
    ∃ index device, FirstOwner devices owns index device := by
  cases found : devices.findFinIdx? test with
  | none =>
    obtain ⟨device, member, has⟩ := owned
    exact absurd ((tests device).2 has) (Array.findFinIdx?_eq_none_iff.1 found device member)
  | some index =>
    obtain ⟨has, first⟩ := Array.findFinIdx?_eq_some_iff.1 found
    refine ⟨index, devices[index], Array.getElem?_eq_getElem index.isLt, (tests _).1 has, ?_⟩
    intro earlier before other placed
    obtain ⟨inside, same⟩ := Array.getElem?_eq_some_iff.1 placed
    rw [← tests, ← same]
    exact first ⟨earlier, inside⟩ before

theorem FirstOwner.push (owner : FirstOwner devices owns index device) (added : Device) :
    FirstOwner (devices.push added) owns index device := by
  obtain ⟨inside, -⟩ := Array.getElem?_eq_some_iff.1 owner.placed
  refine ⟨?_, owner.has, fun earlier before other placed => ?_⟩
  · rw [Array.getElem?_push, if_neg (Nat.ne_of_lt inside)]
    exact owner.placed
  · rw [Array.getElem?_push, if_neg (Nat.ne_of_lt (Nat.lt_trans before inside))] at placed
    exact owner.first earlier before other placed

theorem FirstOwner.setIfInBounds_push (owner : FirstOwner devices owns index device)
    (added changed : Device) :
    (devices.push added).setIfInBounds index changed =
      (devices.setIfInBounds index changed).push added := by
  obtain ⟨inside, -⟩ := Array.getElem?_eq_some_iff.1 owner.placed
  rw [Array.setIfInBounds_def, Array.setIfInBounds_def, dif_pos inside,
    dif_pos (by rw [Array.size_push]; omega), Array.set_push, dif_pos inside]

end FirstOwner

abbrev OwnsPort (bus : Bus) (port : UInt16) : Nat → PortDevice → Prop :=
  FirstOwner bus.ports fun device => port ∈ device.ports

abbrev OwnsAddress (bus : Bus) (address : UInt32) : Nat → MemoryDevice → Prop :=
  FirstOwner bus.memory fun device => device.range.Holds address

/-- An access to a port asks its owner once, and no other device. The value is cut to the size on its
way. Without an owner a read finds ones, and a write does nothing. -/
structure PortServed (bus : Bus) (port : UInt16) (value : UInt32) (size : AccessSize) : Prop where
  read : ∀ index device, bus.OwnsPort port index device →
    bus.readPort port size =
      ⟨(size.cut (device.peripheral.read port.toUInt32 size).1, { bus with
          ports := bus.ports.setIfInBounds index
            { device with peripheral := (device.peripheral.read port.toUInt32 size).2 } }),
        [.access (.port index) (.read port.toUInt32 size)]⟩
  write : ∀ index device, bus.OwnsPort port index device →
    bus.writePort port value size =
      ⟨{ bus with
          ports := bus.ports.setIfInBounds index { device with
            peripheral := device.peripheral.write port.toUInt32 (size.cut value) size } },
        [.access (.port index) (.write port.toUInt32 size (size.cut value))]⟩
  unowned : (∀ device ∈ bus.ports, port ∉ device.ports) →
    bus.readPort port size = ⟨(0xffffffff, bus), []⟩ ∧ bus.writePort port value size = ⟨bus, []⟩

/-- An access outside of the port window asks the owner of the address once, at the offset of the
address in its range, and no other device. The value is cut to the size on its way. Without an owner a
read finds ones, and a write is only logged. -/
structure MemoryServed (bus : Bus) (address value : UInt32) (size : AccessSize) : Prop where
  owned : ∀ index device, bus.OwnsAddress address index device →
    ∃ offset : UInt32, offset.toNat = address.toNat - device.range.start.toNat ∧
      offset.toNat < device.range.size ∧
      bus.read address size =
        ⟨(size.cut (device.read offset size).1, { bus with
            memory := bus.memory.setIfInBounds index (device.read offset size).2 }),
          [.access (.memory index) (.read offset size)]⟩ ∧
      bus.write address value size =
        ⟨{ bus with
            memory := bus.memory.setIfInBounds index (device.write offset (size.cut value) size) },
          .access (.memory index) (.write offset size (size.cut value)) ::
            device.writeEvents offset (size.cut value)⟩ ∧
      ∀ asked access, Event.access asked access ∉ device.writeEvents offset (size.cut value)
  unowned : (∀ device ∈ bus.memory, ¬ device.range.Holds address) →
    bus.read address size = ⟨(0xffffffff, bus), []⟩ ∧
      bus.write address value size = ⟨bus, [.log (.writeDropped value address)]⟩

theorem portServed (bus : Bus) (port : UInt16) (value : UInt32) (size : AccessSize) :
    bus.PortServed port value size := by
  have tests (device : PortDevice) : device.ports.contains port = true ↔ port ∈ device.ports :=
    List.contains_iff_mem
  refine ⟨fun index device owner => ?_, fun index device owner => ?_, fun unowned => ?_⟩
  · obtain ⟨inside, rfl, found⟩ := owner.findFinIdx? tests
    rw [readPort, portOwner?, found, ← AccessSize.truncate_eq_cut, Array.setIfInBounds_def,
      dif_pos inside]
    rfl
  · obtain ⟨inside, rfl, found⟩ := owner.findFinIdx? tests
    rw [writePort, portOwner?, found, ← AccessSize.truncate_eq_cut, Array.setIfInBounds_def,
      dif_pos inside]
    rfl
  · rw [readPort, writePort, portOwner?, findFinIdx?_of_unowned unowned tests]
    exact ⟨rfl, rfl⟩

theorem modify_eq_setIfInBounds {Device : Type} (devices : Array Device) {index : Nat}
    (inside : index < devices.size) (change : Device → Device) :
    devices.modify index change = devices.setIfInBounds index (change devices[index]) := by
  apply Array.ext_getElem?
  intro other
  rw [Array.getElem?_modify, Array.getElem?_setIfInBounds]
  split
  next same =>
    subst same
    rw [Array.getElem?_eq_getElem inside, Option.map_some]
  next => rfl

theorem memoryServed {bus : Bus} {address : UInt32} (noPort : bus.windowPort? address = none)
    (value : UInt32) (size : AccessSize) : bus.MemoryServed address value size := by
  have tests (device : MemoryDevice) :
      device.range.contains address = true ↔ device.range.Holds address :=
    device.range.contains_iff_holds address
  refine ⟨fun index device owner => ?_, fun unowned => ?_⟩
  · obtain ⟨offset, inRange⟩ := owner.has.toNat_sub
    refine ⟨_, offset, offset ▸ inRange, ?_⟩
    obtain ⟨inside, rfl, found⟩ := owner.findFinIdx? tests
    rw [read, write, noPort, ← AccessSize.truncate_eq_cut, ← AccessSize.truncate_eq_cut]
    refine ⟨?_, ?_, MemoryDevice.access_notMem_writeEvents _ _ _⟩
    · rw [readMemory, memoryOwner?, found, Array.setIfInBounds_def, dif_pos inside]
      rfl
    · rw [writeMemory, memoryOwner?, found, ← modify_eq_setIfInBounds bus.memory inside fun device =>
        device.write (address - bus.memory[index].range.start) (size.truncate value) size]
      rfl
  · rw [read, write, noPort, readMemory, writeMemory, memoryOwner?,
      findFinIdx?_of_unowned unowned tests]
    exact ⟨rfl, rfl⟩

section Window

variable {bus : Bus} {address : UInt32}

/-- Through the window an address stands for the port whose number is its distance from the base,
which is a 16-bit number. -/
theorem windowPort?_of_holds {window : AddressRange} (opened : bus.window = some window)
    (whole : window.size = windowSize) (holds : window.Holds address) :
    ∃ port : UInt16, port.toNat = address.toNat - window.start.toNat ∧
      bus.windowPort? address = some port := by
  obtain ⟨offset, inside⟩ := holds.toNat_sub
  refine ⟨(address - window.start).toUInt16, ?_, ?_⟩
  · rw [whole] at inside
    rw [UInt32.toNat_toUInt16, offset]
    exact Nat.mod_eq_of_lt inside
  · rw [windowPort?, opened, Option.bind_some, AddressRange.offset?,
      if_pos ((window.contains_iff_holds address).2 holds)]
    rfl

theorem windowPort?_of_outside (outside : ∀ window ∈ bus.window, ¬ window.Holds address) :
    bus.windowPort? address = none := by
  unfold windowPort?
  cases opened : bus.window with
  | none => rfl
  | some window =>
    have notIn := outside window opened
    rw [← window.contains_iff_holds] at notIn
    rw [Option.bind_some, AddressRange.offset?, if_neg notIn]
    rfl

end Window

inductive Attachment where
  | memory (device : MemoryDevice)
  | ports (device : PortDevice)

def attached (bus : Bus) : Attachment → Bus
  | .memory device => (bus.attachMemory device).value
  | .ports device => (bus.attachPorts device).value

/-- Accesses that a further device changes nothing about: they find and cause the same, and leave the
same devices besides the further one. -/
structure Unmoved (bus : Bus) (attachment : Attachment) (read : Bus → Traced (UInt32 × Bus))
    (write : Bus → Traced Bus) : Prop where
  read : read (bus.attached attachment) = (do
    let (found, asked) ← read bus
    pure (found, asked.attached attachment))
  write : write (bus.attached attachment) = (do
    let told ← write bus
    pure (told.attached attachment))

section Attachment

variable {bus : Bus}

theorem OwnsPort.attached {port : UInt16} {index : Nat} {device : PortDevice}
    (owner : bus.OwnsPort port index device) (attachment : Attachment) :
    (bus.attached attachment).OwnsPort port index device := by
  cases attachment with
  | memory added => exact owner
  | ports added => exact FirstOwner.push owner added

theorem OwnsAddress.attached {address : UInt32} {index : Nat} {device : MemoryDevice}
    (owner : bus.OwnsAddress address index device) (attachment : Attachment) :
    (bus.attached attachment).OwnsAddress address index device := by
  cases attachment with
  | memory added => exact FirstOwner.push owner added
  | ports added => exact owner

/-- A device that is changed in its place is the same before and after another one is attached. -/
theorem OwnsPort.setPorts_attached {port : UInt16} {index : Nat} {device : PortDevice}
    (owner : bus.OwnsPort port index device) (attachment : Attachment) (changed : PortDevice) :
    { bus.attached attachment with
        ports := (bus.attached attachment).ports.setIfInBounds index changed } =
      { bus with ports := bus.ports.setIfInBounds index changed }.attached attachment := by
  cases attachment with
  | memory added => rfl
  | ports added =>
    exact congrArg (fun ports => { bus with ports := ports })
      (FirstOwner.setIfInBounds_push owner added changed)

theorem OwnsAddress.setMemory_attached {address : UInt32} {index : Nat} {device : MemoryDevice}
    (owner : bus.OwnsAddress address index device) (attachment : Attachment)
    (changed : MemoryDevice) :
    { bus.attached attachment with
        memory := (bus.attached attachment).memory.setIfInBounds index changed } =
      { bus with memory := bus.memory.setIfInBounds index changed }.attached attachment := by
  cases attachment with
  | memory added =>
    exact congrArg (fun memory => { bus with memory := memory })
      (FirstOwner.setIfInBounds_push owner added changed)
  | ports added => rfl

theorem unmoved_port {port : UInt16} (owned : ∃ device ∈ bus.ports, port ∈ device.ports)
    (attachment : Attachment) (value : UInt32) (size : AccessSize) :
    bus.Unmoved attachment (·.readPort port size) (·.writePort port value size) := by
  have tests (device : PortDevice) : device.ports.contains port = true ↔ port ∈ device.ports :=
    List.contains_iff_mem
  obtain ⟨index, device, owner⟩ := exists_firstOwner tests owned
  have before := portServed bus port value size
  have after := portServed (bus.attached attachment) port value size
  have later := OwnsPort.attached owner attachment
  constructor
  · dsimp only
    rw [before.read index device owner, after.read index device later,
      OwnsPort.setPorts_attached owner]
    rfl
  · rw [before.write index device owner, after.write index device later,
      OwnsPort.setPorts_attached owner]
    rfl

theorem windowPort?_attached (attachment : Attachment) (address : UInt32) :
    (bus.attached attachment).windowPort? address = bus.windowPort? address := by
  cases attachment with
  | memory added => rfl
  | ports added => rfl

theorem unmoved_memory {address : UInt32} (noPort : bus.windowPort? address = none)
    (owned : ∃ device ∈ bus.memory, device.range.Holds address)
    (attachment : Attachment) (value : UInt32) (size : AccessSize) :
    bus.Unmoved attachment (·.read address size) (·.write address value size) := by
  obtain ⟨index, device, owner⟩ := exists_firstOwner
    (fun device : MemoryDevice => device.range.contains_iff_holds address) owned
  have noPortLater := (windowPort?_attached attachment address).trans noPort
  obtain ⟨offset, isOffset, -, read, write, -⟩ :=
    (memoryServed noPort value size).owned index device owner
  obtain ⟨laterOffset, isLater, -, laterRead, laterWrite, -⟩ :=
    (memoryServed noPortLater value size).owned index device (OwnsAddress.attached owner attachment)
  have sameOffset : laterOffset = offset := UInt32.toNat_inj.1 (isLater.trans isOffset.symm)
  rw [sameOffset, OwnsAddress.setMemory_attached owner] at laterRead laterWrite
  constructor
  · dsimp only
    rw [read, laterRead]
    rfl
  · rw [write, laterWrite]
    exact Traced.ext rfl (List.append_nil _).symm

end Attachment

structure Dispatched (bus : Bus) (address value : UInt32) (size : AccessSize) : Prop where
  window : ∀ window ∈ bus.window, window.Holds address →
    ∃ port : UInt16, port.toNat = address.toNat - window.start.toNat ∧
      bus.read address size = bus.readPort port size ∧
      bus.write address value size = bus.writePort port value size
  port : ∀ port, bus.PortServed port value size
  memory : (∀ window ∈ bus.window, ¬ window.Holds address) → bus.MemoryServed address value size

def Owned (bus : Bus) (address : UInt32) : Prop :=
  (∃ window ∈ bus.window, window.Holds address ∧
    ∃ device ∈ bus.ports, ∃ port ∈ device.ports, port.toNat = address.toNat - window.start.toNat) ∨
  ((∀ window ∈ bus.window, ¬ window.Holds address) ∧
    ∃ device ∈ bus.memory, device.range.Holds address)

/-- On a bus whose window was opened at any base, every access goes to the first attached owner of its
port or its address alone, and accesses that have an owner stay as they are when further devices are
attached. -/
theorem dispatch_by_first_owner (bus : Bus)
    (accepted : ∀ window ∈ bus.window, ∃ base, AddressRange.ofSize base windowSize = .ok window)
    (address value : UInt32) (size : AccessSize) :
    bus.Dispatched address value size ∧
      ∀ attachment,
        (bus.Owned address →
          bus.Unmoved attachment (·.read address size) (·.write address value size)) ∧
        ∀ port, (∃ device ∈ bus.ports, port ∈ device.ports) →
          bus.Unmoved attachment (·.readPort port size) (·.writePort port value size) := by
  have throughWindow : ∀ window ∈ bus.window, window.Holds address →
      ∃ port : UInt16, port.toNat = address.toNat - window.start.toNat ∧
        bus.windowPort? address = some port := by
    intro window opened holds
    obtain ⟨base, made⟩ := accepted window opened
    obtain ⟨start, stop⟩ := AddressRange.start_of_ofBounds made
    have whole : window.size = windowSize := by
      rw [AddressRange.size, start, stop, Nat.add_sub_cancel_left]
    exact windowPort?_of_holds opened whole holds
  refine ⟨⟨fun window opened holds => ?_, fun port => portServed bus port value size,
    fun outside => memoryServed (windowPort?_of_outside outside) value size⟩,
    fun attachment => ⟨fun owned => ?_, fun port owned => unmoved_port owned attachment value size⟩⟩
  · obtain ⟨port, number, stands⟩ := throughWindow window opened holds
    exact ⟨port, number, by rw [read, stands], by rw [write, stands]⟩
  · rcases owned with ⟨window, opened, holds, device, member, port, has, number⟩ | ⟨outside, owned⟩
    · obtain ⟨other, otherNumber, stands⟩ := throughWindow window opened holds
      rw [UInt16.toNat_inj.1 (otherNumber.trans number.symm)] at stands
      have later := (windowPort?_attached attachment address).trans stands
      have unmoved := unmoved_port ⟨device, member, has⟩ attachment value size
      constructor
      · simpa only [read, stands, later] using unmoved.read
      · simpa only [write, stands, later] using unmoved.write
    · exact unmoved_memory (windowPort?_of_outside outside) owned attachment value size

/-- A window up to the end of the address space, over memory that lies over other memory, and two
devices that share a port. -/
def crowded : Bus where
  window := some ⟨0xffff0000, 0x100000000, by decide, by decide⟩
  ports := #[⟨[1, 3], .constant 0x1234⟩, ⟨[3], .latch 0⟩]
  memory := #[.peripheral ⟨0xfffe0000, 0x100000000, by decide, by decide⟩ (.latch 5),
    .peripheral ⟨0, 0x100000000, by decide, by decide⟩ (.constant 9)]

/-- Through an address of the window the first of the two devices is asked, also after memory is
attached there. -/
theorem crowded_by_first_owner :
    (crowded.read 0xffff0003 .byte).value.1 = 0x34 ∧
      (crowded.read 0xffff0003 .byte).events = [.access (.port 0) (.read 3 .byte)] ∧
      crowded.Unmoved (.memory (.peripheral ⟨0xffff0000, 0x100000000, by decide, by decide⟩
        (.constant 0))) (·.read 0xffff0003 .byte) (·.write 0xffff0003 0x5678 .byte) := by
  have accepted : ∀ window ∈ crowded.window,
      ∃ base, AddressRange.ofSize base windowSize = .ok window := by
    rintro window ⟨⟩
    exact ⟨0xffff0000, rfl⟩
  obtain ⟨dispatched, stays⟩ := dispatch_by_first_owner crowded accepted 0xffff0003 0x5678 .byte
  obtain ⟨port, number, read, -⟩ := dispatched.window _ rfl (by decide)
  have third : port = 3 := UInt16.toNat_inj.1 number
  have owner : crowded.OwnsPort 3 0 ⟨[1, 3], .constant 0x1234⟩ :=
    ⟨rfl, by decide, fun earlier before => absurd before (Nat.not_lt_zero earlier)⟩
  have owned : crowded.Owned 0xffff0003 :=
    .inl ⟨_, rfl, by decide, _, Array.mem_of_getElem? owner.placed, 3, by decide, rfl⟩
  rw [read, third, (dispatched.port 3).read 0 _ owner]
  exact ⟨rfl, rfl, (stays _).1 owned⟩

end Bus

end RiscBoard
