import RiscBoard.Proofs.Instruction.Layout
import RiscBoard.Proofs.Mmu.Insertion

/-!
Which entry decides a translation. The entries of the active table are intervals of unbounded numbers,
and the first one with the address in it decides alone: whether the access is permitted, and the
physical address by which its alignment is judged (`translate_by_first_match`). What follows this
entry, the other tables and the rest of the control word say nothing.
-/

namespace RiscBoard

/-- A fetch apart, only shorts and longs can be misaligned. -/
theorem AccessSize.byte_or_exec_or_data (size : AccessSize) :
    size = .byte ∨ size = .exec ∨ (size = .short ∨ size = .long) := by
  cases size <;> simp

namespace MappingEntry

/-- Whether the entry has the address. Its interval may go on past the last address, and then it has
no address there. -/
def Covers (entry : MappingEntry) (address : UInt32) : Prop :=
  entry.virtualBase.toNat ≤ address.toNat ∧
    address.toNat < entry.virtualBase.toNat + entry.size.toNat

instance (entry : MappingEntry) (address : UInt32) : Decidable (entry.Covers address) :=
  inferInstanceAs (Decidable (_ ∧ _))

def place (entry : MappingEntry) (address : UInt32) : UInt32 :=
  UInt32.ofNat (entry.physicalBase.toNat + (address.toNat - entry.virtualBase.toNat))

theorem translate_of_covers {entry : MappingEntry} {address : UInt32}
    (covers : entry.Covers address) : entry.translate address = entry.place address := by
  have distance : address - entry.virtualBase =
      UInt32.ofNat (address.toNat - entry.virtualBase.toNat) := by
    rw [← UInt32.toNat_inj, UInt32.toNat_sub_of_le _ _ (UInt32.le_iff_toNat_le.2 covers.1),
      UInt32.toNat_ofNat_of_lt' (Nat.lt_of_le_of_lt (Nat.sub_le ..) address.toNat_lt)]
  rw [translate, place, distance, UInt32.ofNat_add, UInt32.ofNat_toNat]

end MappingEntry

namespace MappingTable

variable {table other : MappingTable} {slot : Fin 32} {address : UInt32}

structure FirstCovers (table : MappingTable) (slot : Fin 32) (address : UInt32) : Prop where
  covers : (table.get slot).Covers address
  first : ∀ earlier < slot, ¬ (table.get earlier).Covers address

instance (table : MappingTable) (slot : Fin 32) (address : UInt32) :
    Decidable (table.FirstCovers slot address) :=
  decidable_of_iff ((table.get slot).Covers address ∧
      ∀ earlier < slot, ¬ (table.get earlier).Covers address)
    ⟨fun ⟨covers, first⟩ => ⟨covers, first⟩, fun ⟨covers, first⟩ => ⟨covers, first⟩⟩

def AgreesUpTo (table other : MappingTable) (address : UInt32) : Prop :=
  ∀ slot, (∀ earlier < slot, ¬ (table.get earlier).Covers address) →
    other.get slot = table.get slot

theorem lookup?_eq_none_iff (table : MappingTable) (address : UInt32) :
    table.lookup? address = none ↔ ∀ slot, ¬ (table.get slot).Covers address := by
  rw [lookup?, Vector.find?_eq_none]
  constructor
  · intro nowhere slot covers
    exact nowhere _ (Vector.getElem_mem slot.isLt)
      ((MappingEntry.contains_iff _ _).2 covers)
  · intro nowhere entry member contains
    obtain ⟨slot, inside, same⟩ := Vector.mem_iff_getElem.1 member
    subst same
    exact nowhere ⟨slot, inside⟩ ((MappingEntry.contains_iff _ _).1 contains)

theorem lookup?_eq_some_iff (table : MappingTable) (address : UInt32) (entry : MappingEntry) :
    table.lookup? address = some entry ↔
      ∃ slot, table.FirstCovers slot address ∧ table.get slot = entry := by
  rw [lookup?, Vector.find?_eq_some_iff_getElem]
  constructor
  · rintro ⟨contains, slot, inside, same, first⟩
    subst same
    refine ⟨⟨slot, inside⟩, ⟨(MappingEntry.contains_iff _ _).1 contains, ?_⟩, rfl⟩
    intro earlier before covers
    have found := (MappingEntry.contains_iff _ _).2 covers
    have missed := first earlier before
    rw [Bool.not_eq_true'] at missed
    exact Bool.false_ne_true (missed.symm.trans found)
  · rintro ⟨slot, ⟨covers, first⟩, rfl⟩
    refine ⟨(MappingEntry.contains_iff _ _).2 covers, slot, slot.isLt, rfl, ?_⟩
    intro earlier before
    rw [Bool.not_eq_true', Bool.eq_false_iff]
    intro found
    exact first ⟨earlier, Nat.lt_trans before slot.isLt⟩ before
      ((MappingEntry.contains_iff _ _).1 found)

theorem FirstCovers.lookup? (firstCovers : table.FirstCovers slot address) :
    table.lookup? address = some (table.get slot) :=
  (lookup?_eq_some_iff ..).2 ⟨slot, firstCovers, rfl⟩

theorem FirstCovers.of_agrees (firstCovers : table.FirstCovers slot address)
    (agrees : table.AgreesUpTo other address) : other.FirstCovers slot address := by
  refine ⟨?_, fun earlier before => ?_⟩
  · rw [agrees slot firstCovers.first]
    exact firstCovers.covers
  · rw [agrees earlier fun first prior =>
      firstCovers.first first (Fin.lt_trans prior before)]
    exact firstCovers.first earlier before

/-- What follows the first entry that has an address is nothing to a look-up of the address. -/
theorem AgreesUpTo.lookup? (agrees : table.AgreesUpTo other address) :
    other.lookup? address = table.lookup? address := by
  cases found : table.lookup? address with
  | none =>
    have nowhere := (lookup?_eq_none_iff ..).1 found
    rw [lookup?_eq_none_iff]
    intro slot
    rw [agrees slot fun earlier _ => nowhere earlier]
    exact nowhere slot
  | some entry =>
    obtain ⟨slot, firstCovers, same⟩ := (lookup?_eq_some_iff ..).1 found
    rw [(firstCovers.of_agrees agrees).lookup?, agrees slot firstCovers.first, same]

end MappingTable

namespace Mmu

structure Judged (policy : Bool) (physical : UInt32) (size : AccessSize)
    (result : Except Exception UInt32) : Prop where
  fetchMisaligned : result = .error .fetchMisaligned ↔ size = .exec ∧ ¬ 4 ∣ physical.toNat
  dataMisaligned : result = .error .dataMisaligned ↔
    (size = .short ∨ size = .long) ∧ policy = true ∧ ¬ size.bytes ∣ physical.toNat
  passes : result = .ok physical ↔ (size = .exec → 4 ∣ physical.toNat) ∧
    (size = .short ∨ size = .long → policy = true → size.bytes ∣ physical.toNat)

/-- What a translation gives by the first entry of the active table that has the address: no mapping
if there is none, else a protection fault if it lacks the permission, else what the alignment of the
place in its memory says. -/
structure ByFirstMatch (mmu : Mmu) (address : UInt32) (size : AccessSize) (kind : AccessKind) :
    Prop where
  unmapped : mmu.translate address size kind = .error .noMapping ↔
    ∀ slot, ¬ (mmu.activeTable.get slot).Covers address
  forbidden : ∀ slot, mmu.activeTable.FirstCovers slot address →
    (mmu.translate address size kind = .error kind.protectionFault ↔
      (mmu.activeTable.get slot).allows kind = false)
  permitted : ∀ slot, mmu.activeTable.FirstCovers slot address →
    (mmu.activeTable.get slot).allows kind = true →
    Judged mmu.control.misalignmentFaults ((mmu.activeTable.get slot).place address) size
      (mmu.translate address size kind)

/-- Virtual memory that is on as well, has the same bits 11 to 13 in its control word, and the same
entries in the table that these select, up to the first one that has the address. -/
structure SameMatch (mmu other : Mmu) (address : UInt32) : Prop where
  enabled : other.control.enabled = true
  control : ∀ position < 14, 11 ≤ position →
    Word.bit mmu.control.word position = Word.bit other.control.word position
  table : mmu.activeTable.AgreesUpTo (other.table mmu.control.activeTable) address

/-- The alignment of a physical address decides nothing but alignment. -/
theorem Judged.cases {policy : Bool} {physical : UInt32} {size : AccessSize}
    {result : Except Exception UInt32} (judged : Judged policy physical size result) :
    result = .ok physical ∨ result = .error .fetchMisaligned ∨
      result = .error .dataMisaligned := by
  rw [judged.passes, judged.fetchMisaligned, judged.dataMisaligned]
  rcases size.byte_or_exec_or_data with rfl | rfl | data
  · exact .inl ⟨nofun, by simp⟩
  · by_cases aligned : 4 ∣ physical.toNat
    · exact .inl ⟨fun _ => aligned, by simp⟩
    · exact .inr (.inl ⟨rfl, aligned⟩)
  · have noFetch : size = .exec → 4 ∣ physical.toNat := by
      rintro rfl
      simp at data
    by_cases aligned : policy = true → size.bytes ∣ physical.toNat
    · exact .inl ⟨noFetch, fun _ => aligned⟩
    · exact .inr (.inr ⟨data, Classical.not_imp.1 aligned⟩)

theorem Judged.ne_noMapping {policy : Bool} {physical : UInt32} {size : AccessSize}
    {result : Except Exception UInt32} (judged : Judged policy physical size result) :
    result ≠ .error .noMapping := by
  rcases judged.cases with same | same | same
  · rw [same]; nofun
  · rw [same]; nofun
  · rw [same]; nofun

theorem Judged.ne_protectionFault {policy : Bool} {physical : UInt32} {size : AccessSize}
    {result : Except Exception UInt32} (judged : Judged policy physical size result)
    (kind : AccessKind) : result ≠ .error kind.protectionFault := by
  rcases judged.cases with same | same | same
  · rw [same]; nofun
  · rw [same]; cases kind <;> nofun
  · rw [same]; cases kind <;> nofun

theorem isAligned_iff (size : AccessSize) (physical : UInt32) :
    size.isAligned physical = true ↔ size.bytes ∣ physical.toNat := by
  rw [AccessSize.isAligned, beq_iff_eq, Nat.dvd_iff_mod_eq_zero]

theorem alignmentFault?_exec (mmu : Mmu) (physical : UInt32) :
    mmu.alignmentFault? physical .exec =
      if 4 ∣ physical.toNat then none else some .fetchMisaligned := by
  simp only [alignmentFault?, isAligned_iff, AccessSize.bytes]

theorem alignmentFault?_of_data (mmu : Mmu) (physical : UInt32) {size : AccessSize}
    (data : size = .short ∨ size = .long) :
    mmu.alignmentFault? physical size =
      if mmu.control.misalignmentFaults = true ∧ ¬ size.bytes ∣ physical.toNat then
        some .dataMisaligned
      else none := by
  rcases data with rfl | rfl
  · simp only [alignmentFault?, Bool.and_eq_true, Bool.not_eq_true', Bool.eq_false_iff, ne_eq,
      isAligned_iff]
  · simp only [alignmentFault?, Bool.and_eq_true, Bool.not_eq_true', Bool.eq_false_iff, ne_eq,
      isAligned_iff]

section Translate

variable {mmu other : Mmu} {address physical : UInt32}

theorem judged_of_mapped {kind : AccessKind} (mapped : mmu.mapped address kind = .ok physical)
    (size : AccessSize) :
    Judged mmu.control.misalignmentFaults physical size (mmu.translate address size kind) := by
  simp only [translate, mapped]
  rcases size.byte_or_exec_or_data with rfl | rfl | data
  · constructor <;> simp [alignmentFault?]
  · rw [alignmentFault?_exec]
    by_cases aligned : 4 ∣ physical.toNat
    · rw [if_pos aligned]
      constructor <;> simp [aligned]
    · rw [if_neg aligned]
      constructor <;> simp [aligned]
  · have noFetch : size ≠ .exec := by
      rintro rfl
      simp at data
    rw [alignmentFault?_of_data mmu physical data]
    by_cases faults : mmu.control.misalignmentFaults = true ∧ ¬ size.bytes ∣ physical.toNat
    · rw [if_pos faults]
      constructor <;> simp [faults, data, noFetch]
    · have aligned : size = .short ∨ size = .long → mmu.control.misalignmentFaults = true →
          size.bytes ∣ physical.toNat :=
        fun _ policy => Decidable.not_not.1 fun misaligned => faults ⟨policy, misaligned⟩
      rw [if_neg faults]
      constructor
      · simp [noFetch]
      · simpa using aligned
      · simpa [noFetch] using aligned

/-- With virtual memory on, the first entry that has the address decides where the access may go. -/
theorem mapped_of_firstCovers (enabled : mmu.control.enabled = true) {slot : Fin 32}
    (firstCovers : mmu.activeTable.FirstCovers slot address) (kind : AccessKind) :
    mmu.mapped address kind =
      if (mmu.activeTable.get slot).allows kind = true then
        .ok ((mmu.activeTable.get slot).place address)
      else .error kind.protectionFault := by
  rw [mapped, if_pos enabled, firstCovers.lookup?]
  simp only [MappingEntry.translate_of_covers firstCovers.covers]

theorem mapped_of_uncovered (enabled : mmu.control.enabled = true)
    (uncovered : ∀ slot, ¬ (mmu.activeTable.get slot).Covers address) (kind : AccessKind) :
    mmu.mapped address kind = .error .noMapping := by
  rw [mapped, if_pos enabled, (MappingTable.lookup?_eq_none_iff ..).2 uncovered]

theorem byFirstMatch (enabled : mmu.control.enabled = true) (address : UInt32)
    (size : AccessSize) (kind : AccessKind) : mmu.ByFirstMatch address size kind := by
  have decided : ∀ slot, mmu.activeTable.FirstCovers slot address →
      if (mmu.activeTable.get slot).allows kind = true then
        Judged mmu.control.misalignmentFaults ((mmu.activeTable.get slot).place address) size
          (mmu.translate address size kind)
      else mmu.translate address size kind = .error kind.protectionFault := by
    intro slot firstCovers
    have mapped := mapped_of_firstCovers enabled firstCovers kind
    split
    next allowed => exact judged_of_mapped (mapped.trans (if_pos allowed)) size
    next refused => rw [translate, mapped, if_neg refused]
  refine ⟨⟨fun faults => ?_, fun uncovered => ?_⟩, fun slot firstCovers => ?_,
    fun slot firstCovers allowed => ?_⟩
  · rw [← MappingTable.lookup?_eq_none_iff, Option.eq_none_iff_forall_ne_some]
    intro entry found
    obtain ⟨slot, firstCovers, -⟩ := (MappingTable.lookup?_eq_some_iff ..).1 found
    have decision := decided slot firstCovers
    split at decision
    next => exact decision.ne_noMapping faults
    next =>
      rw [faults] at decision
      cases kind <;> cases decision
  · rw [translate, mapped_of_uncovered enabled uncovered]
  · have decision := decided slot firstCovers
    rw [Bool.eq_false_iff]
    split at decision
    next allowed => exact ⟨fun faults => absurd faults (decision.ne_protectionFault kind),
      fun refused => absurd allowed refused⟩
    next refused => exact ⟨fun _ => refused, fun _ => decision⟩
  · have decision := decided slot firstCovers
    rwa [if_pos allowed] at decision

theorem SameMatch.translate_eq (same : mmu.SameMatch other address)
    (enabled : mmu.control.enabled = true) (size : AccessSize) (kind : AccessKind) :
    other.translate address size kind = mmu.translate address size kind := by
  have active : other.control.activeTable = mmu.control.activeTable := by
    have bits := (Word.field_eq_field_iff mmu.control.word other.control.word 12 2).2
      fun position above below => same.control position (by omega) (by omega)
    exact Fin.ext bits.symm
  have policy : other.control.misalignmentFaults = mmu.control.misalignmentFaults :=
    (same.control 11 (by omega) (by omega)).symm
  have found : other.activeTable.lookup? address = mmu.activeTable.lookup? address := by
    rw [activeTable, active]
    exact same.table.lookup?
  have faults (physical : UInt32) :
      other.alignmentFault? physical size = mmu.alignmentFault? physical size := by
    simp only [alignmentFault?, policy]
  simp only [translate, mapped, same.enabled, enabled, found, faults]

end Translate

/-- With virtual memory on, a translation goes by the first entry of the active table that has the
address, and neither what follows this entry nor another table nor a bit of the control word other
than 0 and 11 to 13 changes it. With virtual memory off the address is the physical one, and only its
alignment is judged. -/
theorem translate_by_first_match (mmu : Mmu) (address : UInt32) (size : AccessSize)
    (kind : AccessKind) :
    (mmu.control.enabled = true →
      mmu.ByFirstMatch address size kind ∧
      ∀ other, mmu.SameMatch other address →
        other.translate address size kind = mmu.translate address size kind) ∧
    (mmu.control.enabled = false →
      Judged mmu.control.misalignmentFaults address size (mmu.translate address size kind) ∧
      mmu.translate address size kind ≠ .error .noMapping ∧
      ∀ fault : AccessKind, mmu.translate address size kind ≠ .error fault.protectionFault) := by
  constructor
  · intro enabled
    exact ⟨byFirstMatch enabled address size kind, fun other same => same.translate_eq enabled ..⟩
  · intro disabled
    have judged : Judged mmu.control.misalignmentFaults address size
        (mmu.translate address size kind) := by
      refine judged_of_mapped ?_ size
      rw [mapped, disabled, if_neg Bool.false_ne_true]
    exact ⟨judged, judged.ne_noMapping, judged.ne_protectionFault⟩

/-- Virtual memory with two entries in table 2. The range of the first one would go on past the last
address, and the memory of the second one goes on at address 0. -/
def straddling : Mmu :=
  { cleared with control := ⟨0x2801⟩ }.setActiveTable
    (.ofList [⟨0x5000, 0xfffff000, 0x2000, 7⟩, ⟨0xffffff00, 0x100, 0x400, 4⟩])

def straddlingMore : Mmu :=
  let table := .ofList
    [⟨0x5000, 0xfffff000, 0x2000, 7⟩, ⟨0xffffff00, 0x100, 0x400, 4⟩, ⟨0, 0x100, 0x400, 7⟩]
  { { straddling.setActiveTable table with control := .cleared }.setActiveTable table with
    control := ⟨0x2c01⟩ }

theorem straddling_by_first_match :
    straddling.control.enabled = true ∧ straddling.activeTable.FirstCovers 1 0x202 ∧
      straddling.SameMatch straddlingMore 0x202 ∧
      straddling.translate 0x202 .short .read = .ok 2 ∧
      straddlingMore.translate 0x202 .short .read = .ok 2 ∧
      straddling.translate 0x202 .long .read = .error .dataMisaligned ∧
      straddling.translate 0x202 .byte .write = .error .writeProtection ∧
      straddling.translate 0xffe .byte .read = .error .noMapping := by
  have enabled : straddling.control.enabled = true := by decide
  have first : straddling.activeTable.FirstCovers 1 0x202 := by decide +kernel
  have same : straddling.SameMatch straddlingMore 0x202 := by
    refine ⟨by decide, by decide, ?_⟩
    unfold MappingTable.AgreesUpTo
    decide +kernel
  obtain ⟨short, more⟩ := (translate_by_first_match straddling 0x202 .short .read).1 enabled
  obtain ⟨long, -⟩ := (translate_by_first_match straddling 0x202 .long .read).1 enabled
  obtain ⟨write, -⟩ := (translate_by_first_match straddling 0x202 .byte .write).1 enabled
  obtain ⟨outside, -⟩ := (translate_by_first_match straddling 0xffe .byte .read).1 enabled
  have place : (straddling.activeTable.get 1).place 0x202 = 2 := by decide +kernel
  have found := (short.permitted 1 first (by decide +kernel)).passes.2 (by decide +kernel)
  have misaligned := (long.permitted 1 first (by decide +kernel)).dataMisaligned.2
  rw [place] at found misaligned
  exact ⟨enabled, first, same, found, (more _ same).trans found, misaligned (by decide),
    (write.forbidden 1 first).2 (by decide +kernel), outside.unmapped.2 (by decide +kernel)⟩

end Mmu

end RiscBoard
