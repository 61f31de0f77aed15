import RiscBoard.Bus.Device
import RiscBoard.Proofs.Memory.Serial

/-!
What memories hold after any accesses and loads. Every access is one to single bytes: a write changes
the bytes that it covers and no others, a read is the sum of the bytes that it covers, and bytes past
the end are zeros that cannot be changed. So a byte of RAM is what was last put there, and read-only
memory shows its image at all times (`accesses_are_bytewise`).
-/

namespace RiscBoard

inductive MemoryOperation where
  | read (offset : UInt32) (size : AccessSize)
  | write (offset value : UInt32) (size : AccessSize)
  | load (offset : UInt32) (source : ByteArray)

namespace MemoryOperation

def Puts : MemoryOperation → Nat → UInt8 → Prop
  | .read .., _, _ => False
  | .write offset value size, index, byte =>
    offset.toNat ≤ index ∧ index < offset.toNat + size.bytes ∧
      byte.toNat = value.toNat / 256 ^ (index - offset.toNat) % 256
  | .load offset source, index, byte =>
    offset.toNat ≤ index ∧ source.data[index - offset.toNat]? = some byte

def Untouched (operations : List MemoryOperation) (index : Nat) : Prop :=
  ∀ operation ∈ operations, ∀ byte, ¬ operation.Puts index byte

/-- The last of the operations that put something into the byte puts this value there. -/
inductive LastPuts (index : Nat) (byte : UInt8) : List MemoryOperation → Prop where
  | here {operation : MemoryOperation} {later : List MemoryOperation}
      (puts : operation.Puts index byte) (untouched : Untouched later index) :
      LastPuts index byte (operation :: later)
  | later {operation : MemoryOperation} {later : List MemoryOperation}
      (lastPuts : LastPuts index byte later) : LastPuts index byte (operation :: later)

variable {operation : MemoryOperation} {operations : List MemoryOperation} {index : Nat}
  {byte other : UInt8}

theorem Puts.unique (puts : operation.Puts index byte) (putsOther : operation.Puts index other) :
    byte = other := by
  cases operation with
  | read => exact puts.elim
  | write => exact UInt8.toNat_inj.1 (puts.2.2.trans putsOther.2.2.symm)
  | load => exact Option.some.inj (puts.2.symm.trans putsOther.2)

theorem LastPuts.not_untouched (lastPuts : LastPuts index byte operations) :
    ¬ Untouched operations index := by
  intro untouched
  induction lastPuts with
  | here puts _ => exact untouched _ List.mem_cons_self _ puts
  | later _ ih => exact ih fun operation member => untouched operation (.tail _ member)

theorem LastPuts.unique (lastPuts : LastPuts index byte operations)
    (lastPutsOther : LastPuts index other operations) : byte = other := by
  induction lastPuts with
  | here puts untouched =>
    cases lastPutsOther with
    | here putsOther _ => exact puts.unique putsOther
    | later putsLater => exact absurd untouched putsLater.not_untouched
  | later putsLater ih =>
    cases lastPutsOther with
    | here _ untouched => exact absurd untouched putsLater.not_untouched
    | later putsLaterOther => exact ih putsLaterOther

end MemoryOperation

namespace Bytes

theorem toNat_wordByte (value : UInt32) (index : Nat) :
    (wordByte value index).toNat = value.toNat / 256 ^ index % 256 := by
  rw [wordByte, UInt8.toNat_ofNat', Nat.shiftRight_eq_div_pow, Nat.pow_mul]

/-- The number that an access to a buffer reads. It is what shifts and places of 32 bits give, too, for
a buffer that has no byte at any other place. -/
structure ReadBytewise (byte : Nat → UInt8) (length : Nat) (offset : UInt32) (size : AccessSize)
    (number : UInt32) : Prop where
  sum : number.toNat = ∑ distance ∈ Finset.range size.bytes,
    (byte (offset.toNat + distance)).toNat * 256 ^ distance
  past : ∀ index, length ≤ index → byte index = 0
  gathered : length ≤ UInt32.size → gather byte offset size.bytes = number

theorem readBytewise_value {byte : Nat → UInt8} {length : Nat}
    (past : ∀ index, length ≤ index → byte index = 0) (offset : UInt32) (size : AccessSize) :
    ReadBytewise byte length offset size (value byte offset.toNat size) where
  sum := toNat_value_eq_sum byte offset.toNat size
  past := past
  gathered room := gather_eq_value (fun index far => past index (Nat.le_trans room far)) offset size

def singleRead (read : UInt32 → AccessSize → UInt32) (offset : UInt32) (distance : Nat) : Nat :=
  match place? offset distance with
  | some place => (read place .byte).toNat
  | none => 0

def Combines (read : UInt32 → AccessSize → UInt32) : Prop :=
  ∀ offset size, (read offset size).toNat =
    ∑ distance ∈ Finset.range size.bytes, singleRead read offset distance * 256 ^ distance

theorem toNat_value_byte (byte : Nat → UInt8) (offset : Nat) :
    (value byte offset .byte).toNat = (byte offset).toNat := by
  rw [toNat_value]
  exact Nat.add_zero _

theorem combines_value {byte : Nat → UInt8}
    (blank : ∀ index, UInt32.size ≤ index → byte index = 0) :
    Combines fun offset size => value byte offset.toNat size := by
  intro offset size
  rw [toNat_value_eq_sum]
  refine Finset.sum_congr rfl fun distance _ => ?_
  have same : (byte (offset.toNat + distance)).toNat =
      singleRead (fun offset size => value byte offset.toNat size) offset distance := by
    rw [singleRead]
    rcases Nat.lt_or_ge (offset.toNat + distance) UInt32.size with fits | overflows
    · obtain ⟨place, found, isPlace⟩ := place?_of_lt fits
      rw [found]
      dsimp only
      rw [toNat_value_byte, isPlace]
    · rw [place?_of_le overflows, blank _ overflows]
      rfl
  rw [same]

end Bytes

/-- What a write does to a buffer: it changes the bytes that it covers, as far as they are there. Bytes
that are put one after another at places of 32 bits are the same ones, for a buffer that has no byte
at any other place. -/
structure Contents.WrittenBytewise (contents : Contents) (offset value : UInt32)
    (size : AccessSize) : Prop where
  length : (contents.write offset.toNat value size).size = contents.size
  written : ∀ index, offset.toNat ≤ index → index < offset.toNat + size.bytes →
    index < contents.size →
    ((contents.write offset.toNat value size).byteAt index).toNat =
      value.toNat / 256 ^ (index - offset.toNat) % 256
  kept : ∀ index, ¬ (offset.toNat ≤ index ∧ index < offset.toNat + size.bytes ∧
    index < contents.size) →
    (contents.write offset.toNat value size).byteAt index = contents.byteAt index
  scattered : contents.size ≤ UInt32.size →
    contents.scatter offset value 0 size.bytes = contents.write offset.toNat value size

theorem Contents.writtenBytewise (contents : Contents) (offset value : UInt32)
    (size : AccessSize) : contents.WrittenBytewise offset value size where
  length := size_patch ..
  written index above below inside := by
    rw [byteAt_write, if_pos ⟨above, below, inside⟩, Bytes.toNat_wordByte]
  kept index outside := by
    rw [byteAt_write, if_neg outside]
  scattered room := contents.scatter_eq_write room offset value size

theorem AddressRange.size_le (range : AddressRange) : range.size ≤ UInt32.size :=
  Nat.le_trans (Nat.sub_le ..) range.stop_le_size

theorem AddressRange.of_map_ofSize {Device : Type} {base : UInt32} {size : Nat}
    {make : AddressRange → Device} {made : Device} (accepted : (ofSize base size).map make = .ok made) :
    ∃ range : AddressRange, range.size = size ∧ make range = made := by
  cases bounds : ofSize base size with
  | error _ =>
    rw [bounds] at accepted
    cases accepted
  | ok range =>
    rw [bounds] at accepted
    obtain ⟨start, stop⟩ := start_of_ofBounds bounds
    refine ⟨range, ?_, Except.ok.inj accepted⟩
    rw [AddressRange.size, start, stop, Nat.add_sub_cancel_left]

namespace Ram

def operate (memory : Ram) : MemoryOperation → Ram
  | .read .. => memory
  | .write offset value size => memory.write offset value size
  | .load offset source => memory.load offset.toNat source

/-- The memory that some operations have left. Each byte holds what was last put there, or what it held
before them. -/
structure Remembers (memory : Ram) (operations : List MemoryOperation) (current : Ram) : Prop where
  range : current.range = memory.range
  last : ∀ index < memory.size, ∀ byte, MemoryOperation.LastPuts index byte operations →
    current.contents.byteAt index = byte
  kept : ∀ index < memory.size, MemoryOperation.Untouched operations index →
    current.contents.byteAt index = memory.contents.byteAt index

theorem range_operate (memory : Ram) (operation : MemoryOperation) :
    (memory.operate operation).range = memory.range := by
  cases operation with
  | read => rfl
  | write offset value size => exact memory.range_write offset value size
  | load offset source => exact memory.range_load offset.toNat source

/-- One operation puts something into a byte or leaves it as it is. -/
theorem byte_operate (memory : Ram) (operation : MemoryOperation) {index : Nat}
    (inside : index < memory.contents.size) :
    operation.Puts index ((memory.operate operation).contents.byteAt index) ∨
      (∀ byte, ¬ operation.Puts index byte) ∧
        (memory.operate operation).contents.byteAt index = memory.contents.byteAt index := by
  cases operation with
  | read => exact .inr ⟨fun _ => id, rfl⟩
  | write offset value size =>
    have bytewise := memory.contents.writtenBytewise offset value size
    by_cases covered : offset.toNat ≤ index ∧ index < offset.toNat + size.bytes
    · exact .inl ⟨covered.1, covered.2, bytewise.written index covered.1 covered.2 inside⟩
    · right
      constructor
      · rintro byte ⟨above, below, -⟩
        exact covered ⟨above, below⟩
      · exact bytewise.kept index fun written => covered ⟨written.1, written.2.1⟩
  | load offset source =>
    have patched := memory.contents.byteAt_patch offset.toNat source.size (Bytes.byteAt source) index
    by_cases covered : offset.toNat ≤ index ∧ index < offset.toNat + source.size
    · left
      have within : index - offset.toNat < source.data.size := by
        rw [ByteArray.size_data]
        omega
      rw [if_pos ⟨covered.1, covered.2, inside⟩, Bytes.byteAt_eq_data,
        Array.getElem?_eq_getElem within, Option.getD_some] at patched
      refine ⟨covered.1, ?_⟩
      rw [Array.getElem?_eq_getElem within]
      exact congrArg some patched.symm
    · right
      constructor
      · rintro byte ⟨above, found⟩
        obtain ⟨within, -⟩ := Array.getElem?_eq_some_iff.1 found
        rw [ByteArray.size_data] at within
        omega
      · rw [if_neg fun written => covered ⟨written.1, written.2.1⟩] at patched
        exact patched

theorem range_operateAll (memory : Ram) (operations : List MemoryOperation) :
    (operations.foldl operate memory).range = memory.range := by
  induction operations generalizing memory with
  | nil => rfl
  | cons operation later ih => rw [List.foldl_cons, ih, range_operate]

theorem lastPuts_or_untouched (memory : Ram) (operations : List MemoryOperation) {index : Nat}
    (inside : index < memory.contents.size) :
    MemoryOperation.LastPuts index ((operations.foldl operate memory).contents.byteAt index)
        operations ∨
      MemoryOperation.Untouched operations index ∧
        (operations.foldl operate memory).contents.byteAt index = memory.contents.byteAt index := by
  induction operations generalizing memory with
  | nil => exact .inr ⟨fun _ member => absurd member List.not_mem_nil, rfl⟩
  | cons operation later ih =>
    have stillInside : index < (memory.operate operation).contents.size := by
      rwa [contents_size_of_range (memory.range_operate operation)]
    rw [List.foldl_cons]
    rcases ih _ stillInside with putsLater | ⟨untouched, unchanged⟩
    · exact .inl (.later putsLater)
    · rw [unchanged]
      rcases memory.byte_operate operation inside with puts | ⟨leaves, same⟩
      · exact .inl (.here puts untouched)
      · refine .inr ⟨?_, same⟩
        intro other member
        rcases List.mem_cons.1 member with rfl | further
        · exact leaves
        · exact untouched other further

theorem remembers (memory : Ram) (operations : List MemoryOperation) :
    memory.Remembers operations (operations.foldl operate memory) where
  range := memory.range_operateAll operations
  last index inside byte lastPuts := by
    rcases memory.lastPuts_or_untouched operations inside with found | ⟨untouched, -⟩
    · exact found.unique lastPuts
    · exact absurd untouched lastPuts.not_untouched
  kept index inside untouched := by
    rcases memory.lastPuts_or_untouched operations inside with found | ⟨-, unchanged⟩
    · exact absurd untouched found.not_untouched
    · exact unchanged

theorem combines_read (memory : Ram) : Bytes.Combines memory.read := by
  apply Bytes.combines_value
  intro index far
  apply Contents.byteAt_of_size_le
  rw [memory.size_eq]
  exact Nat.le_trans memory.range.size_le far

structure Fresh (memory : Ram) (size : Nat) : Prop where
  length : memory.size = size
  blank : ∀ index, memory.contents.byteAt index = 0

theorem fresh_of_create {base : UInt32} {size : Nat} {memory : Ram}
    (made : create base size = .ok memory) : memory.Fresh size := by
  obtain ⟨range, length, rfl⟩ := AddressRange.of_map_ofSize made
  exact ⟨length, Contents.byteAt_zeros range.size⟩

end Ram

namespace Rom

theorem combines_read (memory : Rom) : Bytes.Combines memory.read := by
  apply Bytes.combines_value
  intro index far
  apply Bytes.byteAt_of_size_le
  exact Nat.le_trans (Nat.le_trans memory.image_fits memory.range.size_le) far

def MadeWith (memory : Rom) (size : Nat) (image : ByteArray) : Prop :=
  ∃ base, create base size image = .ok memory ∨
    ofImage base image = .ok memory ∧ size = image.size

structure Shows (memory : Rom) (size : Nat) (image : ByteArray) : Prop where
  length : memory.size = size
  shown : ∀ index (inside : index < image.size), index < size →
    Bytes.byteAt memory.image index = image[index]
  rest : ∀ index, min image.size size ≤ index → Bytes.byteAt memory.image index = 0

theorem shows_of_create {base : UInt32} {size : Nat} {image : ByteArray} {memory : Rom}
    (made : create base size image = .ok memory) : memory.Shows size image := by
  obtain ⟨range, length, rfl⟩ := AddressRange.of_map_ofSize made
  refine ⟨length, ?_, ?_⟩
  · intro index inside below
    rw [Bytes.byteAt_extract image (by omega), Nat.zero_add, Bytes.byteAt, dif_pos inside]
  · intro index past
    apply Bytes.byteAt_of_size_le
    rw [ByteArray.size_extract]
    omega

theorem MadeWith.shows {memory : Rom} {size : Nat} {image : ByteArray}
    (made : memory.MadeWith size image) : memory.Shows size image := by
  obtain ⟨base, created | ⟨exactly, rfl⟩⟩ := made
  · exact shows_of_create created
  · unfold ofImage at exactly
    split at exactly
    · exact shows_of_create exactly
    · cases exactly

end Rom

namespace MemoryDevice

def operate (device : MemoryDevice) : MemoryOperation → MemoryDevice
  | .read offset size => (device.read offset size).2
  | .write offset value size => device.write offset value size
  | .load offset source => device.modifyRam fun memory => memory.load offset.toNat source

def operateAll (device : MemoryDevice) (operations : List MemoryOperation) : MemoryDevice :=
  operations.foldl operate device

theorem operateAll_ram (memory : Ram) (operations : List MemoryOperation) :
    (MemoryDevice.ram memory).operateAll operations = .ram (operations.foldl Ram.operate memory) := by
  induction operations generalizing memory with
  | nil => rfl
  | cons operation later ih =>
    have first : (MemoryDevice.ram memory).operate operation = .ram (memory.operate operation) := by
      cases operation with
      | read | write | load => rfl
    rw [operateAll, List.foldl_cons, first]
    exact ih (memory.operate operation)

theorem operateAll_rom (memory : Rom) (operations : List MemoryOperation) :
    (MemoryDevice.rom memory).operateAll operations = .rom memory := by
  induction operations with
  | nil => rfl
  | cons operation later ih =>
    have first : (MemoryDevice.rom memory).operate operation = .rom memory := by
      cases operation with
      | read | write | load => rfl
    rw [operateAll, List.foldl_cons, first]
    exact ih

/-- Accesses to buffers and devices of every kind and size act on single bytes. What operations leave
in RAM is what they put there last, and they leave read-only memory as it was made. -/
theorem accesses_are_bytewise :
    (∀ (contents : Contents) (offset value : UInt32) (size : AccessSize),
      contents.WrittenBytewise offset value size ∧
        Bytes.ReadBytewise contents.byteAt contents.size offset size
          (contents.read offset.toNat size)) ∧
    (∀ (bytes : ByteArray) (offset : UInt32) (size : AccessSize),
      Bytes.ReadBytewise (Bytes.byteAt bytes) bytes.size offset size
        (Bytes.read bytes offset.toNat size)) ∧
    (∀ memory : Ram, Bytes.Combines memory.read) ∧
    (∀ memory : Rom, Bytes.Combines memory.read) ∧
    (∀ (base : UInt32) (size : Nat) (memory : Ram), Ram.create base size = .ok memory →
      memory.Fresh size) ∧
    (∀ (memory : Ram) (operations : List MemoryOperation), ∃ current,
      (MemoryDevice.ram memory).operateAll operations = .ram current ∧
        memory.Remembers operations current) ∧
    ∀ (memory : Rom) (size : Nat) (image : ByteArray), memory.MadeWith size image →
      memory.Shows size image ∧
        ∀ operations, (MemoryDevice.rom memory).operateAll operations = .rom memory := by
  refine ⟨?_, ?_, Ram.combines_read, Rom.combines_read, ?_, ?_, ?_⟩
  · intro contents offset value size
    refine ⟨contents.writtenBytewise offset value size, ?_⟩
    exact Bytes.readBytewise_value (fun _ => Contents.byteAt_of_size_le) offset size
  · intro bytes offset size
    exact Bytes.readBytewise_value (fun _ => Bytes.byteAt_of_size_le) offset size
  · intro base size memory
    exact Ram.fresh_of_create
  · intro memory operations
    exact ⟨_, operateAll_ram memory operations, memory.remembers operations⟩
  · intro memory size image made
    exact ⟨made.shows, operateAll_rom memory⟩

def atTheEnd : List MemoryOperation :=
  [.write 5 0x44332211 .long, .read 0 .exec, .load 6 ⟨#[0x99]⟩, .write 0xffffffff 0xaabbccdd .short]

theorem operations_at_the_end_are_bytewise :
    (Contents.zeros 4).size ≤ UInt32.size ∧
      (Contents.zeros 4).scatter 0xffffffff 0xaabbccdd 0 4 =
        (Contents.zeros 4).write 0xffffffff 0xaabbccdd .long ∧
      (((Contents.zeros 4).write 3 0xaabbccdd .long).byteAt 3).toNat = 0xdd ∧
      (∃ memory current, Ram.create 0x100 8 = .ok memory ∧
        (MemoryDevice.ram memory).operateAll atTheEnd = .ram current ∧
        current.contents.byteAt 4 = 0 ∧ current.contents.byteAt 6 = 0x99 ∧
        current.contents.byteAt 7 = 0x33) ∧
      ∃ memory : Rom, memory.MadeWith 2 ⟨#[1, 2, 3]⟩ ∧ Bytes.byteAt memory.image 1 = 2 ∧
        Bytes.byteAt memory.image 2 = 0 ∧
        (MemoryDevice.rom memory).operateAll atTheEnd = .rom memory := by
  obtain ⟨buffers, -, -, -, freshRams, rams, roms⟩ := accesses_are_bytewise
  have room : (Contents.zeros 4).size ≤ UInt32.size := by decide
  have far := (buffers (Contents.zeros 4) 0xffffffff 0xaabbccdd .long).1.scattered room
  have near := (buffers (Contents.zeros 4) 3 0xaabbccdd .long).1.written 3 (by decide) (by decide)
    (by decide)
  obtain ⟨ram, ramMade⟩ : ∃ memory, Ram.create 0x100 8 = .ok memory := ⟨_, rfl⟩
  have fresh := freshRams 0x100 8 ram ramMade
  obtain ⟨current, run, remembers⟩ := rams ram atTheEnd
  have untouched : MemoryOperation.Untouched atTheEnd 4 := by
    simp [MemoryOperation.Untouched, atTheEnd, MemoryOperation.Puts]
  have six : MemoryOperation.LastPuts 6 0x99 atTheEnd := by
    refine .later (.later (.here ⟨by decide, rfl⟩ ?_))
    simp [MemoryOperation.Untouched, MemoryOperation.Puts]
  have seven : MemoryOperation.LastPuts 7 0x33 atTheEnd := by
    refine .here ⟨by decide, by decide, by decide⟩ ?_
    simp [MemoryOperation.Untouched, MemoryOperation.Puts]
  obtain ⟨rom, romMade⟩ : ∃ memory, Rom.create 0x100 2 ⟨#[1, 2, 3]⟩ = .ok memory := ⟨_, rfl⟩
  have madeWith : rom.MadeWith 2 ⟨#[1, 2, 3]⟩ := ⟨0x100, .inl romMade⟩
  obtain ⟨shows, stays⟩ := roms rom 2 ⟨#[1, 2, 3]⟩ madeWith
  have inside (index : Nat) (below : index < 8) : index < ram.size := by rwa [fresh.length]
  refine ⟨room, far, near, ⟨ram, current, ramMade, run, ?_, ?_, ?_⟩,
    rom, madeWith, ?_, ?_, stays atTheEnd⟩
  · rw [remembers.kept 4 (inside 4 (by decide)) untouched, fresh.blank]
  · exact remembers.last 6 (inside 6 (by decide)) 0x99 six
  · exact remembers.last 7 (inside 7 (by decide)) 0x33 seven
  · exact shows.shown 1 (by decide) (by decide)
  · exact shows.rest 2 (by decide)

end MemoryDevice

end RiscBoard
