import Mathlib.Data.List.Nodup
import RiscBoard.Proofs.Board.Regions

/-!
What counts as an overlap. Ranges that have an address in common overlap, and no others do as long
as both have addresses. An empty range also overlaps one that it lies inside of, though there is
nothing to share; so a board is refused exactly if two of its regions share an address or one of
them is empty and lies inside another.
-/

namespace RiscBoard

namespace AddressRange

def Meets (range other : AddressRange) : Prop :=
  ∃ address, range.contains address = true ∧ other.contains address = true

/-- A range without addresses, strictly between the ends of another one. -/
def HollowIn (range other : AddressRange) : Prop :=
  range.isEmpty = true ∧ other.start.toNat < range.start.toNat ∧ range.start.toNat < other.stop

theorem overlaps_iff_bounds (range other : AddressRange) :
    range.overlaps other = true ↔
      range.start.toNat < other.stop ∧ other.start.toNat < range.stop := by
  rw [overlaps, Bool.and_eq_true, decide_eq_true_eq, decide_eq_true_eq]

theorem Meets.symm {range other : AddressRange} (meets : range.Meets other) :
    other.Meets range := by
  obtain ⟨address, inside, insideOther⟩ := meets
  exact ⟨address, insideOther, inside⟩

theorem HollowIn.not_meets {range other : AddressRange} (hollow : range.HollowIn other) :
    ¬ range.Meets other := by
  rintro ⟨address, inside, -⟩
  have bounds := (range.contains_iff_toNat address).1 inside
  have empty : range.start.toNat = range.stop := beq_iff_eq.1 hollow.1
  omega

theorem overlaps_iff (range other : AddressRange) :
    range.overlaps other = true ↔
      range.Meets other ∨ range.HollowIn other ∨ other.HollowIn range := by
  rw [overlaps_iff_bounds]
  constructor
  · rintro ⟨before, after⟩
    by_cases empty : range.start.toNat = range.stop
    · exact .inr (.inl ⟨beq_iff_eq.2 empty, by omega, before⟩)
    by_cases otherEmpty : other.start.toNat = other.stop
    · exact .inr (.inr ⟨beq_iff_eq.2 otherEmpty, by omega, after⟩)
    -- The later one of the two starts lies in both ranges.
    have ordered := range.start_le_stop
    have otherOrdered := other.start_le_stop
    left
    rcases Nat.le_total range.start.toNat other.start.toNat with first | first
    · exact ⟨other.start, (range.contains_iff_toNat _).2 ⟨first, after⟩,
        (other.contains_iff_toNat _).2 ⟨Nat.le_refl _, by omega⟩⟩
    · exact ⟨range.start, (range.contains_iff_toNat _).2 ⟨Nat.le_refl _, by omega⟩,
        (other.contains_iff_toNat _).2 ⟨first, before⟩⟩
  · rintro (⟨address, inside, insideOther⟩ | hollow | hollow)
    · have bounds := (range.contains_iff_toNat address).1 inside
      have otherBounds := (other.contains_iff_toNat address).1 insideOther
      omega
    · have empty : range.start.toNat = range.stop := beq_iff_eq.1 hollow.1
      obtain ⟨-, above, below⟩ := hollow
      omega
    · have empty : other.start.toNat = other.stop := beq_iff_eq.1 hollow.1
      obtain ⟨-, above, below⟩ := hollow
      omega

/-- Overlapping is the same as sharing an address exactly for ranges neither of which is empty
inside the other one. -/
theorem overlaps_iff_meets_iff (range other : AddressRange) :
    (range.overlaps other = true ↔ range.Meets other) ↔
      ¬ range.HollowIn other ∧ ¬ other.HollowIn range := by
  rw [overlaps_iff]
  constructor
  · intro same
    constructor
    · intro hollow
      exact hollow.not_meets (same.1 (.inr (.inl hollow)))
    · intro hollow
      exact hollow.not_meets (same.1 (.inr (.inr hollow))).symm
  · rintro ⟨notHollow, otherNotHollow⟩
    simp only [notHollow, otherNotHollow, or_false]

theorem ofSize_of_fits {start : UInt32} {size : Nat}
    (fits : start.toNat + size ≤ addressSpaceSize) :
    ∃ range, ofSize start size = .ok range :=
  ⟨_, dif_pos ⟨Nat.le_add_right .., fits⟩⟩

end AddressRange

namespace Layout

theorem collision?_of_pairwise {earlier later : Layout}
    (apart : (earlier ++ later).Pairwise fun first second =>
      second.2.overlaps first.2 = false) : collision? earlier later = none := by
  induction later generalizing earlier with
  | nil => rfl
  | cons next later ih =>
    obtain ⟨region, range⟩ := next
    have free : earlier.find? (fun other => range.overlaps other.2) = none := by
      rw [List.find?_eq_none]
      intro other member
      rw [(List.pairwise_append.1 apart).2.2 other member _ List.mem_cons_self]
      exact Bool.false_ne_true
    rw [List.append_cons] at apart
    rw [collision?, free]
    exact ih apart

theorem collision?_eq_none_iff (regions : Layout) :
    collision? [] regions = none ↔
      regions.Pairwise fun first second => second.2.overlaps first.2 = false :=
  ⟨pairwise_of_collision? List.Pairwise.nil, fun apart => collision?_of_pairwise apart⟩

end Layout

namespace BoardConfig

def Fits (config : BoardConfig) : Prop :=
  ∀ region, ∀ extent ∈ config.extent? region, extent.1.toNat + extent.2 ≤ addressSpaceSize

def SharesAddress (config : BoardConfig) : Prop :=
  ∃ region other address, region ≠ other ∧ config.Occupies region address ∧
    config.Occupies other address

def HidesEmpty (config : BoardConfig) : Prop :=
  ∃ region other, ∃ place ∈ config.extent? region, ∃ extent ∈ config.extent? other,
    place.2 = 0 ∧ extent.1.toNat < place.1.toNat ∧ place.1.toNat < extent.1.toNat + extent.2

def BiosSizeFits (config : BoardConfig) : Prop :=
  ∀ image ∈ config.bios, image.size < addressSpaceSize

def ReportsOverlap (config : BoardConfig) : Prop :=
  ∃ region other, Board.create config = .error (.overlap region other)

end BoardConfig

namespace Board

structure Planned (config : BoardConfig) (memory biosRam : Ram) (bios : Option Rom)
    (window : AddressRange) : Prop where
  memoryMade : Ram.create config.memoryBase config.memorySize.toNat = .ok memory
  biosRamMade : Ram.create biosRamBase biosRamSize = .ok biosRam
  biosMade : createBios config.bios = .ok bios
  windowMade : AddressRange.ofSize config.windowBase Bus.windowSize = .ok window

section Planned

variable {config : BoardConfig} {memory biosRam : Ram} {bios : Option Rom} {window : AddressRange}

theorem ram_of_fits {base : UInt32} {size : Nat}
    (fits : base.toNat + size ≤ addressSpaceSize) :
    ∃ memory, Ram.create base size = .ok memory := by
  obtain ⟨range, made⟩ := AddressRange.ofSize_of_fits fits
  rw [Ram.create, made]
  exact ⟨_, rfl⟩

theorem bios_of_fits (fits : config.Fits) (sized : config.BiosSizeFits) :
    ∃ bios, createBios config.bios = .ok bios := by
  cases present : config.bios with
  | none => exact ⟨none, rfl⟩
  | some image =>
    have inside := fits .biosRom (biosRomBase, image.size)
      (by simp only [BoardConfig.extent?, present]; rfl)
    obtain ⟨range, made⟩ := AddressRange.ofSize_of_fits inside
    rw [createBios, Rom.ofImage, if_pos (sized image present), Rom.create, made]
    exact ⟨_, rfl⟩

theorem planned_of_fits (fits : config.Fits) (sized : config.BiosSizeFits) :
    ∃ memory biosRam bios window, Planned config memory biosRam bios window := by
  obtain ⟨memory, memoryMade⟩ := ram_of_fits (fits .mainMemory _ rfl)
  obtain ⟨biosRam, biosRamMade⟩ := ram_of_fits (fits .biosRam _ rfl)
  obtain ⟨bios, biosMade⟩ := bios_of_fits fits sized
  obtain ⟨window, windowMade⟩ := AddressRange.ofSize_of_fits (fits .ioWindow _ rfl)
  exact ⟨memory, biosRam, bios, window, memoryMade, biosRamMade, biosMade, windowMade⟩

theorem Planned.mem_layout_iff (planned : Planned config memory biosRam bios window)
    (region : Region) (range : AddressRange) :
    (region, range) ∈ layout memory biosRam bios (some window) ↔
      ∃ extent ∈ config.extent? region, AddressRange.ofSize extent.1 extent.2 = .ok range := by
  have memoryMade := (Ram.range_and_reset_of_create planned.memoryMade).1
  have biosRamMade := (Ram.range_and_reset_of_create planned.biosRamMade).1
  have windowMade := planned.windowMade
  rcases bios_of_createBios planned.biosMade with
    ⟨absent, rfl⟩ | ⟨bytes, rom, present, rfl, biosMade⟩
  · cases region <;>
      simp [layout, BoardConfig.extent?, memoryMade, biosRamMade, windowMade, absent, eq_comm]
  · cases region <;>
      simp [layout, BoardConfig.extent?, memoryMade, biosRamMade, windowMade, present, biosMade,
        eq_comm]

theorem Planned.create_eq (planned : Planned config memory biosRam bios window) :
    ∃ made, create config =
      match Layout.collision? [] (layout memory biosRam bios (some window)) with
      | some (region, other) => .error (.overlap region other)
      | none => .ok made := by
  have mapped : Bus.empty.mapWindow config.windowBase = .ok ⟨some window, #[], #[]⟩ := by
    rw [Bus.mapWindow, planned.windowMade]
    rfl
  rw [create, planned.memoryMade, planned.biosRamMade, planned.biosMade, mapped]
  exact ⟨_, rfl⟩

/-- No region occurs twice in a layout, so that being apart is a matter of any two regions. -/
theorem pairwise_layout_iff (memory biosRam : Ram) (bios : Option Rom)
    (window : Option AddressRange) :
    ((layout memory biosRam bios window).Pairwise fun first second =>
        second.2.overlaps first.2 = false) ↔
      ∀ first ∈ layout memory biosRam bios window, ∀ second ∈ layout memory biosRam bios window,
        first.1 ≠ second.1 → first.2.overlaps second.2 = false := by
  have distinct : (layout memory biosRam bios window).Pairwise fun first second =>
      first.1 ≠ second.1 := by
    cases bios <;> cases window <;> simp [layout]
  have symmetric : Std.Symm fun first second : Region × AddressRange =>
      second.2.overlaps first.2 = false :=
    ⟨fun first second apart => by rwa [AddressRange.overlaps_comm]⟩
  constructor
  · intro apart first member second otherMember different
    rw [AddressRange.overlaps_comm]
    exact apart.forall member otherMember fun same => different (congrArg Prod.fst same)
  · intro apart
    refine distinct.imp_of_mem fun member otherMember different => ?_
    rw [AddressRange.overlaps_comm]
    exact apart _ member _ otherMember different

theorem Planned.reportsOverlap_iff_overlaps
    (planned : Planned config memory biosRam bios window) :
    config.ReportsOverlap ↔
      ∃ first ∈ layout memory biosRam bios (some window),
        ∃ second ∈ layout memory biosRam bios (some window),
          first.1 ≠ second.1 ∧ first.2.overlaps second.2 = true := by
  have refused : config.ReportsOverlap ↔
      ¬ (layout memory biosRam bios (some window)).Pairwise fun first second =>
        second.2.overlaps first.2 = false := by
    obtain ⟨made, created⟩ := planned.create_eq
    rw [← Layout.collision?_eq_none_iff, BoardConfig.ReportsOverlap, created]
    cases Layout.collision? [] (layout memory biosRam bios (some window)) with
    | none => simp
    | some found => simp
  rw [refused, pairwise_layout_iff]
  push Not
  simp only [ne_eq, Bool.not_eq_false]

theorem hollowIn_iff_of_ofSize {start otherStart : UInt32} {size otherSize : Nat}
    {range other : AddressRange} (made : AddressRange.ofSize start size = .ok range)
    (otherMade : AddressRange.ofSize otherStart otherSize = .ok other) :
    range.HollowIn other ↔
      size = 0 ∧ otherStart.toNat < start.toNat ∧ start.toNat < otherStart.toNat + otherSize := by
  obtain ⟨sameStart, sameStop⟩ := AddressRange.start_of_ofBounds made
  obtain ⟨otherSameStart, otherSameStop⟩ := AddressRange.start_of_ofBounds otherMade
  rw [AddressRange.HollowIn, AddressRange.isEmpty, beq_iff_eq, sameStart, sameStop, otherSameStart,
    otherSameStop]
  omega

theorem Planned.reportsOverlap_of_extents (planned : Planned config memory biosRam bios window)
    (fits : config.Fits) {region other : Region} (different : region ≠ other)
    {extent otherExtent : UInt32 × Nat} (isExtent : extent ∈ config.extent? region)
    (isOther : otherExtent ∈ config.extent? other)
    (overlap : ∀ range otherRange, AddressRange.ofSize extent.1 extent.2 = .ok range →
      AddressRange.ofSize otherExtent.1 otherExtent.2 = .ok otherRange →
      range.overlaps otherRange = true) : config.ReportsOverlap := by
  obtain ⟨range, made⟩ := AddressRange.ofSize_of_fits (fits region extent isExtent)
  obtain ⟨otherRange, otherMade⟩ := AddressRange.ofSize_of_fits (fits other otherExtent isOther)
  rw [planned.reportsOverlap_iff_overlaps]
  exact ⟨(region, range), (planned.mem_layout_iff _ _).2 ⟨extent, isExtent, made⟩,
    (other, otherRange), (planned.mem_layout_iff _ _).2 ⟨otherExtent, isOther, otherMade⟩,
    different, overlap range otherRange made otherMade⟩

theorem Planned.reportsOverlap_iff (planned : Planned config memory biosRam bios window)
    (fits : config.Fits) :
    config.ReportsOverlap ↔ config.SharesAddress ∨ config.HidesEmpty := by
  constructor
  · rw [planned.reportsOverlap_iff_overlaps]
    rintro ⟨⟨region, range⟩, member, ⟨other, otherRange⟩, otherMember, different, overlap⟩
    obtain ⟨extent, isExtent, made⟩ := (planned.mem_layout_iff region range).1 member
    obtain ⟨otherExtent, isOther, otherMade⟩ :=
      (planned.mem_layout_iff other otherRange).1 otherMember
    rcases (range.overlaps_iff otherRange).1 overlap with
      ⟨address, inside, insideOther⟩ | hollow | hollow
    · exact .inl ⟨region, other, address, different,
        ⟨extent, isExtent, (AddressRange.contains_of_ofSize made address).1 inside⟩,
        ⟨otherExtent, isOther, (AddressRange.contains_of_ofSize otherMade address).1 insideOther⟩⟩
    · exact .inr ⟨region, other, extent, isExtent, otherExtent, isOther,
        (hollowIn_iff_of_ofSize made otherMade).1 hollow⟩
    · exact .inr ⟨other, region, otherExtent, isOther, extent, isExtent,
        (hollowIn_iff_of_ofSize otherMade made).1 hollow⟩
  · rintro (⟨region, other, address, different, ⟨extent, isExtent, inside⟩,
      ⟨otherExtent, isOther, insideOther⟩⟩ | ⟨region, other, extent, isExtent, otherExtent, isOther,
      hollow⟩)
    · apply planned.reportsOverlap_of_extents fits different isExtent isOther
      intro range otherRange made otherMade
      rw [AddressRange.overlaps_iff]
      exact .inl ⟨address, (AddressRange.contains_of_ofSize made address).2 inside,
        (AddressRange.contains_of_ofSize otherMade address).2 insideOther⟩
    · have different : region ≠ other := by
        rintro rfl
        rw [Option.mem_unique isExtent isOther] at hollow
        omega
      apply planned.reportsOverlap_of_extents fits different isExtent isOther
      intro range otherRange made otherMade
      rw [AddressRange.overlaps_iff]
      exact .inr (.inl ((hollowIn_iff_of_ofSize made otherMade).2 hollow))

end Planned

section Whole

variable {config : BoardConfig}

/-- A BIOS whose size is no word takes the whole address space. -/
theorem whole_of_not_biosSizeFits (fits : config.Fits) (large : ¬ config.BiosSizeFits) :
    ∃ image, config.bios = some image ∧ image.size = addressSpaceSize := by
  unfold BoardConfig.BiosSizeFits at large
  push Not at large
  obtain ⟨image, present, large⟩ := large
  have inside := fits .biosRom (biosRomBase, image.size)
    (by rw [BoardConfig.extent?, Option.mem_def.1 present]; rfl)
  refine ⟨image, present, ?_⟩
  dsimp only at inside
  omega

/-- Such a BIOS is refused for its size, before any regions are compared. -/
theorem not_reportsOverlap_of_whole (fits : config.Fits) (large : ¬ config.BiosSizeFits) :
    ¬ config.ReportsOverlap := by
  obtain ⟨image, present, whole⟩ := whole_of_not_biosSizeFits fits large
  obtain ⟨memory, memoryMade⟩ := ram_of_fits (fits .mainMemory _ rfl)
  obtain ⟨biosRam, biosRamMade⟩ := ram_of_fits (fits .biosRam _ rfl)
  have oversized : createBios config.bios =
      .error (.outOfBounds .biosRom ⟨biosRomBase, biosRomBase.toNat + image.size⟩) := by
    rw [present]
    simp only [createBios, Rom.ofImage, if_neg (Nat.not_lt.2 (Nat.le_of_eq whole.symm))]
    rfl
  rintro ⟨region, other, refused⟩
  rw [create, memoryMade, biosRamMade, oversized] at refused
  cases refused

theorem sharesAddress_of_whole (fits : config.Fits) (large : ¬ config.BiosSizeFits) :
    config.SharesAddress := by
  obtain ⟨image, present, whole⟩ := whole_of_not_biosSizeFits fits large
  refine ⟨.biosRam, .biosRom, biosRamBase, by decide, ⟨_, rfl, by decide, by decide⟩,
    ⟨(biosRomBase, image.size), by rw [BoardConfig.extent?, present]; rfl, ?_, ?_⟩⟩
  · exact Nat.zero_le _
  · rw [whole]
    decide

end Whole

/-- Two ranges overlap if they share an address or one of them is empty inside the other one, and a
board whose regions fit is refused for overlaps accordingly. So overlapping means sharing an address
except for a range that is empty inside another one, and for a BIOS of the size of the address
space, which is refused for its size. -/
theorem overlaps_shared_or_hollow (range other : AddressRange) {config : BoardConfig}
    (fits : config.Fits) :
    (range.overlaps other = true ↔
      range.Meets other ∨ range.HollowIn other ∨ other.HollowIn range) ∧
    ((range.overlaps other = true ↔ range.Meets other) ↔
      ¬ range.HollowIn other ∧ ¬ other.HollowIn range) ∧
    (config.ReportsOverlap ↔
      config.BiosSizeFits ∧ (config.SharesAddress ∨ config.HidesEmpty)) ∧
    ((config.ReportsOverlap ↔ config.SharesAddress) ↔
      config.BiosSizeFits ∧ (config.HidesEmpty → config.SharesAddress)) := by
  refine ⟨range.overlaps_iff other, range.overlaps_iff_meets_iff other, ?_⟩
  by_cases sized : config.BiosSizeFits
  · obtain ⟨memory, biosRam, bios, window, planned⟩ := planned_of_fits fits sized
    rw [planned.reportsOverlap_iff fits]
    tauto
  · have quiet := not_reportsOverlap_of_whole fits sized
    have shares := sharesAddress_of_whole fits sized
    tauto

def memoryAt (base size : UInt32) : BoardConfig :=
  { BoardConfig.standard with memoryBase := base, memorySize := size }

theorem fits_memoryAt {base size : UInt32}
    (inside : base.toNat + size.toNat ≤ addressSpaceSize) : (memoryAt base size).Fits := by
  intro region extent isExtent
  cases region with
  | mainMemory =>
    cases isExtent
    exact inside
  | biosRom => cases isExtent
  | biosRam =>
    cases isExtent
    decide
  | ioWindow =>
    cases isExtent
    change 0x40000 + 0x10000 ≤ addressSpaceSize
    decide

theorem biosSizeFits_memoryAt (base size : UInt32) : (memoryAt base size).BiosSizeFits := by
  intro image present
  cases present

theorem straddling_reported :
    (memoryAt 0x8ff00 0x200).ReportsOverlap ∧
      AddressRange.Meets ⟨0x8ff00, 0x90100, by decide, by decide⟩
        ⟨0x80000, 0x90000, by decide, by decide⟩ := by
  have fits : (memoryAt 0x8ff00 0x200).Fits := fits_memoryAt (by decide)
  have shares : (memoryAt 0x8ff00 0x200).SharesAddress :=
    ⟨.mainMemory, .biosRam, 0x8ffff, by decide, ⟨_, rfl, by decide, by decide⟩,
      ⟨_, rfl, by decide, by decide⟩⟩
  obtain ⟨-, meets_iff, reports_iff, -⟩ := overlaps_shared_or_hollow
    ⟨0x8ff00, 0x90100, by decide, by decide⟩ ⟨0x80000, 0x90000, by decide, by decide⟩ fits
  have apart := meets_iff.2 ⟨fun hollow => absurd hollow.1 (by decide),
    fun hollow => absurd hollow.1 (by decide)⟩
  exact ⟨reports_iff.2 ⟨biosSizeFits_memoryAt _ _, .inl shares⟩, apart.1 (by decide)⟩

theorem region_of_occupies {base : UInt32} {region : Region} {address : UInt32}
    (occupied : (memoryAt base 0).Occupies region address) :
    region = if address.toNat < 0x80000 then .ioWindow else .biosRam := by
  obtain ⟨extent, isExtent, above, below⟩ := occupied
  cases region with
  | mainMemory =>
    cases isExtent
    exact absurd below (Nat.not_lt.2 above)
  | biosRom => cases isExtent
  | biosRam =>
    cases isExtent
    exact (if_neg (Nat.not_lt.2 above)).symm
  | ioWindow =>
    cases isExtent
    change address.toNat < 0x40000 + 0x10000 at below
    exact (if_pos (by omega)).symm

/-- An empty range overlaps one around it, and a board whose main memory is empty and lies inside
the BIOS's memory is refused, though no address is shared. -/
theorem empty_memory_reported :
    (¬ ∀ range other : AddressRange, range.overlaps other = true ↔ range.Meets other) ∧
      ¬ ∀ config : BoardConfig, config.Fits → (config.ReportsOverlap ↔ config.SharesAddress) := by
  constructor
  · intro promised
    have same := promised ⟨64, 64, by decide, by decide⟩ ⟨0, 256, by decide, by decide⟩
    have hollow : AddressRange.HollowIn ⟨64, 64, by decide, by decide⟩
        ⟨0, 256, by decide, by decide⟩ := ⟨by decide, by decide, by decide⟩
    exact ((AddressRange.overlaps_iff_meets_iff _ _).1 same).1 hollow
  · intro promised
    have fits : (memoryAt 0x80100 0).Fits := fits_memoryAt (by decide)
    obtain ⟨memory, biosRam, bios, window, planned⟩ :=
      planned_of_fits fits (biosSizeFits_memoryAt _ _)
    have hidden : (memoryAt 0x80100 0).HidesEmpty :=
      ⟨.mainMemory, .biosRam, _, rfl, _, rfl, rfl, by decide, by decide⟩
    have reported := (planned.reportsOverlap_iff fits).2 (.inr hidden)
    obtain ⟨region, other, address, different, occupied, otherOccupied⟩ :=
      (promised _ fits).1 reported
    exact different ((region_of_occupies occupied).trans (region_of_occupies otherOccupied).symm)

end Board

end RiscBoard
