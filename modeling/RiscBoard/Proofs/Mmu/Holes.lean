import RiscBoard.Proofs.Mmu.Translation

/-!
Insertion into a table with holes. Programs can write any slot, so vacant entries may be anywhere. The
first of them takes the new entry, and what the table maps already stays as it is, unless it is mapped
by an entry after the hole (`insert_keeps_earlier`).
-/

namespace RiscBoard

theorem MappingEntry.not_covers_of_size {entry : MappingEntry} (vacant : entry.size = 0)
    (address : UInt32) : ¬ entry.Covers address := by
  rintro ⟨above, below⟩
  rw [vacant, UInt32.toNat_zero] at below
  omega

namespace MappingTable

variable {table : MappingTable} {entry : MappingEntry} {slot : Fin 32} {address : UInt32}

def afterInsert (table : MappingTable) (entry : MappingEntry) : MappingTable :=
  match table.insert entry with
  | .ok (_, changed) => changed
  | .error _ => table

structure FirstHole (table : MappingTable) (slot : Fin 32) : Prop where
  vacant : (table.get slot).size = 0
  first : ∀ earlier < slot, (table.get earlier).size ≠ 0

/-- An entry in a slot takes an address over: it has the address, and no entry before it has. -/
def TakesOver (table : MappingTable) (slot : Fin 32) (entry : MappingEntry) (address : UInt32) :
    Prop :=
  entry.Covers address ∧ ∀ earlier < slot, ¬ (table.get earlier).Covers address

instance (table : MappingTable) (slot : Fin 32) (entry : MappingEntry) (address : UInt32) :
    Decidable (table.TakesOver slot entry address) :=
  inferInstanceAs (Decidable (_ ∧ _))

structure Filled (table : MappingTable) (entry : MappingEntry) (slot : Fin 32)
    (changed : MappingTable) : Prop where
  hole : table.FirstHole slot
  placed : changed.get slot = entry
  others : ∀ other ≠ slot, changed.get other = table.get other
  lookup : ∀ address, changed.lookup? address =
    if table.TakesOver slot entry address then some entry else table.lookup? address
  /-- Only the entries after the hole can lose an address. -/
  shadowed : ∀ address owner, table.FirstCovers owner address →
    changed.lookup? address ≠ table.lookup? address → slot < owner
  /-- A vacant entry leaves the hole open. -/
  stillOpen : entry.size = 0 → (∀ address, changed.lookup? address = table.lookup? address) ∧
    ∀ next, changed.insert next = .ok (slot, changed.set slot next)

theorem isVacant_get_iff : (table.get slot).isVacant = true ↔ (table.get slot).size = 0 := by
  rw [MappingEntry.isVacant, beq_iff_eq]

theorem firstVacant?_eq_some_iff : table.firstVacant? = some slot ↔ table.FirstHole slot := by
  have same : table.firstVacant? = some slot ↔ table.firstVacant?.map Fin.val = some slot.val := by
    cases table.firstVacant? with
    | none => simp
    | some found => simp [Fin.ext_iff]
  rw [same, firstVacant?_val, List.findIdx?_eq_some_iff_getElem]
  constructor
  · rintro ⟨inside, vacant, first⟩
    refine ⟨isVacant_get_iff.1 vacant, ?_⟩
    intro earlier before hole
    exact first earlier.val before (isVacant_get_iff.2 hole)
  · rintro ⟨vacant, first⟩
    have inside : slot.val < table.entries.toList.length := by
      rw [Vector.length_toList]
      exact slot.isLt
    refine ⟨inside, isVacant_get_iff.2 vacant, ?_⟩
    intro earlier before hole
    exact first ⟨earlier, Nat.lt_trans before slot.isLt⟩ before (isVacant_get_iff.1 hole)

theorem firstVacant?_eq_none_iff :
    table.firstVacant? = none ↔ ∀ slot, (table.get slot).size ≠ 0 := by
  rw [firstVacant?, Vector.findFinIdx?_eq_none_iff]
  constructor
  · intro taken slot hole
    exact taken _ (Vector.getElem_mem slot.isLt) (isVacant_get_iff.2 hole)
  · intro taken entry member hole
    obtain ⟨slot, inside, rfl⟩ := Vector.mem_iff_getElem.1 member
    exact taken ⟨slot, inside⟩ (isVacant_get_iff.1 hole)

theorem insert_of_firstHole (hole : table.FirstHole slot) (entry : MappingEntry) :
    table.insert entry = .ok (slot, table.set slot entry) := by
  rw [insert, firstVacant?_eq_some_iff.2 hole]

theorem insert_eq_error_iff :
    table.insert entry = .error .full ↔ ∀ slot, (table.get slot).size ≠ 0 := by
  rw [← firstVacant?_eq_none_iff, insert]
  cases table.firstVacant? with
  | none => simp
  | some slot => simp

section Filling

theorem get_set_self (table : MappingTable) (slot : Fin 32) (entry : MappingEntry) :
    (table.set slot entry).get slot = entry := by
  rw [get_set, if_pos rfl]

theorem get_set_of_ne {other : Fin 32} (different : other ≠ slot) (table : MappingTable)
    (entry : MappingEntry) : (table.set slot entry).get other = table.get other := by
  rw [get_set, if_neg different.symm]

theorem lookup?_of_takesOver (takes : table.TakesOver slot entry address) :
    (table.set slot entry).lookup? address = some entry := by
  have firstCovers : (table.set slot entry).FirstCovers slot address := by
    constructor
    · rw [get_set_self]
      exact takes.1
    · intro earlier before
      rw [get_set_of_ne (Fin.ne_of_lt before)]
      exact takes.2 earlier before
  rw [firstCovers.lookup?, get_set_self]

/-- An entry before the hole that has an address keeps it, and an entry after the hole keeps what the
new one does not have. -/
theorem lookup?_of_not_takesOver (hole : table.FirstHole slot)
    (leaves : ¬ table.TakesOver slot entry address) :
    (table.set slot entry).lookup? address = table.lookup? address := by
  have vacant := MappingEntry.not_covers_of_size hole.vacant address
  cases found : table.lookup? address with
  | none =>
    have nowhere := (lookup?_eq_none_iff ..).1 found
    rw [lookup?_eq_none_iff]
    intro other
    by_cases same : other = slot
    · subst same
      rw [get_set_self]
      intro covers
      exact leaves ⟨covers, fun earlier _ => nowhere earlier⟩
    · rw [get_set_of_ne same]
      exact nowhere other
  | some owner =>
    obtain ⟨place, firstCovers, same⟩ := (lookup?_eq_some_iff ..).1 found
    have elsewhere : place ≠ slot := by
      rintro rfl
      exact vacant firstCovers.covers
    have still : (table.set slot entry).FirstCovers place address := by
      constructor
      · rw [get_set_of_ne elsewhere]
        exact firstCovers.covers
      · intro earlier before covers
        by_cases filled : earlier = slot
        · subst filled
          rw [get_set_self] at covers
          apply leaves
          exact ⟨covers, fun prior less => firstCovers.first prior (Fin.lt_trans less before)⟩
        · rw [get_set_of_ne filled] at covers
          exact firstCovers.first earlier before covers
    rw [still.lookup?, get_set_of_ne elsewhere, same]

theorem filled_set (hole : table.FirstHole slot) (entry : MappingEntry) :
    table.Filled entry slot (table.set slot entry) := by
  refine ⟨hole, get_set_self .., fun other different => get_set_of_ne different table entry,
    ?_, ?_, ?_⟩
  · intro address
    split
    next takes => exact lookup?_of_takesOver takes
    next leaves => exact lookup?_of_not_takesOver hole leaves
  · intro address owner firstCovers changes
    have takes : table.TakesOver slot entry address := by
      apply Decidable.byContradiction
      intro leaves
      exact changes (lookup?_of_not_takesOver hole leaves)
    rcases Nat.lt_trichotomy owner.val slot.val with before | same | after
    · exact absurd firstCovers.covers (takes.2 owner before)
    · rw [← Fin.ext same] at hole
      exact absurd firstCovers.covers (MappingEntry.not_covers_of_size hole.vacant address)
    · exact after
  · intro empty
    have again : (table.set slot entry).FirstHole slot := by
      constructor
      · rw [get_set_self]
        exact empty
      · intro earlier before
        rw [get_set_of_ne (Fin.ne_of_lt before)]
        exact hole.first earlier before
    constructor
    · intro address
      apply lookup?_of_not_takesOver hole
      exact fun takes => MappingEntry.not_covers_of_size empty address takes.1
    · intro next
      exact insert_of_firstHole again next

end Filling

/-- An entry is refused exactly if no slot is vacant, and then nothing changes. Otherwise it fills the
first hole and takes over addresses from later entries only. -/
theorem insert_keeps_earlier (table : MappingTable) (entry : MappingEntry) :
    (table.insert entry = .error .full ↔ ∀ slot, (table.get slot).size ≠ 0) ∧
    ((∀ slot, (table.get slot).size ≠ 0) → table.afterInsert entry = table) ∧
    (¬ (∀ slot, (table.get slot).size ≠ 0) →
      ∃ slot, table.insert entry = .ok (slot, table.afterInsert entry) ∧
        table.Filled entry slot (table.afterInsert entry)) := by
  refine ⟨insert_eq_error_iff, ?_, ?_⟩
  · intro taken
    rw [afterInsert, insert_eq_error_iff.2 taken]
  · intro free
    rw [← firstVacant?_eq_none_iff, ← ne_eq, Option.ne_none_iff_exists'] at free
    obtain ⟨slot, found⟩ := free
    have hole := firstVacant?_eq_some_iff.1 found
    have changed : table.afterInsert entry = table.set slot entry := by
      rw [afterInsert, insert_of_firstHole hole]
    rw [changed]
    exact ⟨slot, insert_of_firstHole hole entry, filled_set hole entry⟩

def holed : MappingTable := ⟨Vector.ofFn fun slot =>
  if slot.val = 0 then ⟨0x8000, 0x1000, 0x100, 7⟩
  else if slot.val = 2 then ⟨0x9000, 0x1080, 0x1000, 7⟩
  else .vacant⟩

def crowded : MappingTable := ⟨Vector.replicate 32 ⟨0, 0x1000, 1, 7⟩⟩

/-- The entry in the hole takes 0x1100 over, but not 0x10c0. -/
theorem holed_keeps_earlier :
    ¬ (∀ slot, (holed.get slot).size ≠ 0) ∧ (∀ slot, (crowded.get slot).size ≠ 0) ∧
      holed.insert ⟨0xa000, 0x10c0, 0x200, 4⟩ =
        .ok (1, holed.afterInsert ⟨0xa000, 0x10c0, 0x200, 4⟩) ∧
      (holed.afterInsert ⟨0xa000, 0x10c0, 0x200, 4⟩).lookup? 0x10c0 =
        some ⟨0x8000, 0x1000, 0x100, 7⟩ ∧
      (holed.afterInsert ⟨0xa000, 0x10c0, 0x200, 4⟩).lookup? 0x1100 =
        some ⟨0xa000, 0x10c0, 0x200, 4⟩ ∧
      crowded.afterInsert ⟨0xa000, 0x10c0, 0x200, 4⟩ = crowded := by
  have free : ¬ (∀ slot, (holed.get slot).size ≠ 0) := by decide +kernel
  have taken : ∀ slot, (crowded.get slot).size ≠ 0 := by decide +kernel
  obtain ⟨-, -, fills⟩ := insert_keeps_earlier holed ⟨0xa000, 0x10c0, 0x200, 4⟩
  obtain ⟨-, stays, -⟩ := insert_keeps_earlier crowded ⟨0xa000, 0x10c0, 0x200, 4⟩
  obtain ⟨slot, inserted, filled⟩ := fills free
  have hole : holed.FirstHole 1 := ⟨by decide +kernel, by decide +kernel⟩
  obtain rfl : slot = 1 :=
    Option.some.inj ((firstVacant?_eq_some_iff.2 filled.hole).symm.trans
      (firstVacant?_eq_some_iff.2 hole))
  have leaves : ¬ holed.TakesOver 1 ⟨0xa000, 0x10c0, 0x200, 4⟩ 0x10c0 := by decide +kernel
  have takes : holed.TakesOver 1 ⟨0xa000, 0x10c0, 0x200, 4⟩ 0x1100 := by decide +kernel
  refine ⟨free, taken, inserted, ?_, ?_, stays taken⟩
  · rw [filled.lookup, if_neg leaves]
    decide +kernel
  · rw [filled.lookup, if_pos takes]

end MappingTable

end RiscBoard
