import RiscBoard.Mmu.Basic
import RiscBoard.Proofs.Mmu.Reach

/-!
Tables that are filled from empty. Such a table holds the entries that were put into it, in their
order, less the vacant ones: a slot with a vacant entry is free for the next insertion. A look-up
finds the first of the entries that covers the address, and insertion fails only when the table
holds 32 entries.
-/

namespace RiscBoard.MappingTable

def occupied (entries : List MappingEntry) : List MappingEntry :=
  entries.filter fun entry => !entry.isVacant

/-- The occupied ones of the entries come first in the table, and what follows them is free. -/
def Holds (table : MappingTable) (entries : List MappingEntry) : Prop :=
  ∃ free : List MappingEntry, table.entries.toList = occupied entries ++ free ∧
    ∀ entry ∈ free, entry.isVacant = true

theorem occupied_append (entries later : List MappingEntry) :
    occupied (entries ++ later) = occupied entries ++ occupied later :=
  List.filter_append ..

theorem length_occupied_le (entries : List MappingEntry) :
    (occupied entries).length ≤ entries.length :=
  List.length_filter_le ..

theorem isVacant_of_mem_occupied {entries : List MappingEntry} {entry : MappingEntry}
    (member : entry ∈ occupied entries) : entry.isVacant = false := by
  simpa using (List.mem_filter.1 member).2

theorem holds_empty : empty.Holds [] :=
  ⟨List.replicate 32 .vacant, Vector.toList_replicate, fun entry member => by
    rw [List.eq_of_mem_replicate member]; rfl⟩

/-- Vacant entries cover no address, so leaving them out changes no look-up. -/
theorem find?_occupied (entries : List MappingEntry) (address : UInt32) :
    (occupied entries).find? (·.contains address) = entries.find? (·.contains address) := by
  rw [occupied, List.find?_filter]
  congr 1
  funext entry
  cases covers : entry.contains address with
  | false => simp
  | true => simp [Mmu.isVacant_of_contains covers]

theorem lookup?_of_holds {table : MappingTable} {entries : List MappingEntry}
    (holds : table.Holds entries) (address : UInt32) :
    table.lookup? address = entries.find? (·.contains address) := by
  obtain ⟨free, same, vacant⟩ := holds
  have none : free.find? (·.contains address) = none := by
    rw [List.find?_eq_none]
    intro entry member covers
    have occupied := Mmu.isVacant_of_contains covers
    rw [vacant entry member] at occupied
    cases occupied
  rw [lookup?, ← Vector.find?_toList, same, List.find?_append, none, Option.or_none,
    find?_occupied]

theorem firstVacant?_val (table : MappingTable) :
    table.firstVacant?.map Fin.val = table.entries.toList.findIdx? (·.isVacant) := by
  obtain ⟨⟨⟨entries⟩, size⟩⟩ := table
  rw [firstVacant?, Vector.findFinIdx?_mk, Option.map_map]
  exact Array.findIdx?_eq_map_findFinIdx?_val.symm.trans (List.findIdx?_toArray ..)

/-- The first free slot is the one after the occupied ones. -/
theorem firstVacant?_of_holds {table : MappingTable} {entries free : List MappingEntry}
    {next : MappingEntry}
    (same : table.entries.toList = occupied entries ++ next :: free)
    (vacant : next.isVacant = true) :
    table.firstVacant?.map Fin.val = some (occupied entries).length := by
  have none : (occupied entries).findIdx? (·.isVacant) = none := by
    rw [List.findIdx?_eq_none_iff]
    exact fun entry member => isVacant_of_mem_occupied member
  rw [firstVacant?_val, same, List.findIdx?_append, none, List.findIdx?_cons, vacant]
  simp

theorem insert_of_holds {table : MappingTable} {entries : List MappingEntry}
    (holds : table.Holds entries) (room : entries.length < 32) (entry : MappingEntry) :
    ∃ slot changed, table.insert entry = .ok (slot, changed) ∧
      changed.Holds (entries ++ [entry]) := by
  obtain ⟨free, same, vacant⟩ := holds
  have sizes : 32 = (occupied entries).length + free.length := by
    rw [← List.length_append, ← same, Vector.length_toList]
  have fewer := length_occupied_le entries
  cases free with
  | nil =>
    rw [List.length_nil] at sizes
    omega
  | cons next free =>
    have found := firstVacant?_of_holds same (vacant next List.mem_cons_self)
    obtain ⟨slot, isSlot, place⟩ := Option.map_eq_some_iff.1 found
    refine ⟨slot, table.set slot entry, by rw [insert, isSlot], ?_⟩
    have replaced : (table.set slot entry).entries.toList = occupied entries ++ entry :: free := by
      rw [set, Vector.toList_set, same, place]
      simp
    have rest : ∀ other ∈ free, other.isVacant = true := fun other member =>
      vacant other (List.mem_cons_of_mem next member)
    rw [Holds, occupied_append, replaced]
    cases takes : entry.isVacant with
    | true => exact ⟨entry :: free, by simp [occupied, takes], by simpa [takes] using rest⟩
    | false => exact ⟨free, by simp [occupied, takes], rest⟩

def ofList (entries : List MappingEntry) : MappingTable :=
  entries.foldl (fun table entry =>
    match table.insert entry with
    | .ok (_, changed) => changed
    | .error _ => table) empty

end RiscBoard.MappingTable
