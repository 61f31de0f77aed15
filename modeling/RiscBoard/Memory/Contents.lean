import RiscBoard.Memory.Bytes

/-!
The contents of a memory of any size. They are kept in pages, of which only what was written takes
up room, so that an untouched memory of many gigabytes costs next to nothing. Everything is said
through one view, the byte at an index, which is zero past the end and wherever nothing was written.
There are two changes: `patch` replaces the bytes of a run, and `clear` makes them zeros, page by page.
Both drop what falls past the end.
-/

namespace RiscBoard

def Contents.pageSize : Nat := 0x1000

/-- The bytes of a memory. Page `number` starts at byte `number * pageSize`. A page goes as far as it
was written, and zeros follow. -/
structure Contents where
  size : Nat
  pages : Array ByteArray
  covered : size ≤ pages.size * Contents.pageSize

namespace Contents

def byteAt (contents : Contents) (index : Nat) : UInt8 :=
  if index < contents.size then
    Bytes.byteAt (contents.pages.getD (index / pageSize) .empty) (index % pageSize)
  else 0

theorem byteAt_of_size_le {contents : Contents} {index : Nat} (past : contents.size ≤ index) :
    contents.byteAt index = 0 :=
  if_neg (Nat.not_lt_of_le past)

def zeros (size : Nat) : Contents where
  size := size
  pages := Array.replicate ((size + pageSize - 1) / pageSize) .empty
  covered := by
    rw [Array.size_replicate]
    unfold pageSize
    omega

@[simp] theorem size_zeros (size : Nat) : (zeros size).size = size := rfl

@[simp] theorem byteAt_zeros (size index : Nat) : (zeros size).byteAt index = 0 := by
  unfold byteAt zeros
  rw [Array.getD_eq_getD_getElem?, Array.getElem?_replicate]
  split
  · split
    · rfl
    · rfl
  · rfl

def setByte (contents : Contents) (index : Nat) (value : UInt8) : Contents :=
  match contents with
  | ⟨size, pages, covered⟩ =>
    if index < size then
      ⟨size, pages.modify (index / pageSize) fun page => Bytes.put page (index % pageSize) value,
        by rwa [Array.size_modify]⟩
    else ⟨size, pages, covered⟩

@[simp] theorem size_setByte (contents : Contents) (index : Nat) (value : UInt8) :
    (contents.setByte index value).size = contents.size := by
  obtain ⟨size, pages, covered⟩ := contents
  by_cases inside : index < size
  · simp only [setByte, inside, ↓reduceIte]
  · simp only [setByte, inside, ↓reduceIte]

theorem byteAt_setByte (contents : Contents) (index other : Nat) (value : UInt8) :
    (contents.setByte index value).byteAt other =
      if index = other ∧ other < contents.size then value else contents.byteAt other := by
  obtain ⟨size, pages, covered⟩ := contents
  unfold setByte
  by_cases inside : index < size
  · simp only [inside, ↓reduceIte, byteAt]
    by_cases otherInside : other < size
    · simp only [otherInside, ↓reduceIte, and_true, Array.getD_eq_getD_getElem?,
        Array.getElem?_modify]
      by_cases samePage : index / pageSize = other / pageSize
      · have present : other / pageSize < pages.size := by
          rw [Nat.div_lt_iff_lt_mul (by decide)]
          exact Nat.lt_of_lt_of_le otherInside covered
        rw [if_pos samePage, Array.getElem?_eq_getElem present]
        simp only [Option.map_some, Option.getD_some, Bytes.byteAt_put]
        by_cases same : index = other
        · rw [if_pos same, if_pos (by rw [same])]
        · have elsewhere : index % pageSize ≠ other % pageSize := by
            unfold pageSize at *
            omega
          rw [if_neg same, if_neg elsewhere]
      · have different : index ≠ other := fun same => samePage (by rw [same])
        rw [if_neg samePage, if_neg different]
    · simp only [otherInside, ↓reduceIte, and_false]
  · have untouched : ¬ (index = other ∧ other < size) := by omega
    simp only [inside, untouched, ↓reduceIte]

/-- Replaces `count` bytes from `offset` on, the one `distance` further on by `source distance`. -/
def patch (contents : Contents) (offset count : Nat) (source : Nat → UInt8) : Contents :=
  count.fold (fun distance _ filled => filled.setByte (offset + distance) (source distance)) contents

@[simp] theorem size_patch (contents : Contents) (offset count : Nat) (source : Nat → UInt8) :
    (contents.patch offset count source).size = contents.size := by
  induction count with
  | zero => rfl
  | succ count ih =>
    simp only [patch, Nat.fold_succ, size_setByte]
    exact ih

theorem byteAt_patch (contents : Contents) (offset count : Nat) (source : Nat → UInt8)
    (index : Nat) :
    (contents.patch offset count source).byteAt index =
      if offset ≤ index ∧ index < offset + count ∧ index < contents.size then
        source (index - offset)
      else contents.byteAt index := by
  induction count with
  | zero =>
    have outside : ¬ (offset ≤ index ∧ index < offset + 0 ∧ index < contents.size) := by omega
    rw [if_neg outside]
    rfl
  | succ count ih =>
    have step : contents.patch offset (count + 1) source =
        (contents.patch offset count source).setByte (offset + count) (source count) := by
      simp only [patch, Nat.fold_succ]
    rw [step, byteAt_setByte, ih, size_patch]
    by_cases last : offset + count = index
    · subst last
      by_cases inside : offset + count < contents.size
      · simp [inside]
      · simp [inside]
    · by_cases earlier : offset ≤ index ∧ index < offset + count ∧ index < contents.size
      · have later : offset ≤ index ∧ index < offset + (count + 1) ∧ index < contents.size := by
          omega
        simp [last, earlier, later]
      · have later : ¬ (offset ≤ index ∧ index < offset + (count + 1) ∧ index < contents.size) := by
          omega
        simp [last, earlier, later]

def clearPage (contents : Contents) (start stop number : Nat) : Contents :=
  match contents with
  | ⟨size, pages, covered⟩ =>
    ⟨size, pages.modify number fun page =>
      Bytes.clear page (start - number * pageSize) (stop - number * pageSize),
      by rwa [Array.size_modify]⟩

@[simp] theorem size_clearPage (contents : Contents) (start stop number : Nat) :
    (contents.clearPage start stop number).size = contents.size := rfl

theorem byteAt_clearPage (contents : Contents) {start stop : Nat} (ordered : start ≤ stop)
    (number index : Nat) :
    (contents.clearPage start stop number).byteAt index =
      if index / pageSize = number ∧ start ≤ index ∧ index < stop then 0
      else contents.byteAt index := by
  obtain ⟨size, pages, covered⟩ := contents
  simp only [clearPage, byteAt]
  by_cases inside : index < size
  · have present : index / pageSize < pages.size := by
      rw [Nat.div_lt_iff_lt_mul (by decide)]
      exact Nat.lt_of_lt_of_le inside covered
    simp only [inside, ↓reduceIte, Array.getD_eq_getD_getElem?, Array.getElem?_modify,
      Array.getElem?_eq_getElem present, Option.getD_some]
    by_cases here : number = index / pageSize
    · have inOrder : start - number * pageSize ≤ stop - number * pageSize := by omega
      rw [if_pos here, Option.map_some, Option.getD_some, Bytes.byteAt_clear _ inOrder]
      have same : (start - number * pageSize ≤ index % pageSize ∧
          index % pageSize < stop - number * pageSize) ↔
          index / pageSize = number ∧ start ≤ index ∧ index < stop := by
        unfold pageSize at *
        omega
      simp only [same]
    · have elsewhere : ¬ (index / pageSize = number ∧ start ≤ index ∧ index < stop) := by omega
      rw [if_neg here, if_neg elsewhere, Option.getD_some]
  · simp only [inside, ↓reduceIte, ite_self]

/-- Zeros instead of the bytes from `start` up to but not including `stop`, in so many pages from the
page of `start` on. -/
def clearPages (contents : Contents) (start stop count : Nat) : Contents :=
  count.fold (fun distance _ cleared =>
    cleared.clearPage start stop (start / pageSize + distance)) contents

@[simp] theorem size_clearPages (contents : Contents) (start stop count : Nat) :
    (contents.clearPages start stop count).size = contents.size := by
  induction count with
  | zero => rfl
  | succ count ih =>
    simp only [clearPages, Nat.fold_succ, size_clearPage]
    exact ih

theorem byteAt_clearPages (contents : Contents) {start stop : Nat} (ordered : start ≤ stop)
    (count index : Nat) :
    (contents.clearPages start stop count).byteAt index =
      if start ≤ index ∧ index < stop ∧ index / pageSize < start / pageSize + count then 0
      else contents.byteAt index := by
  induction count with
  | zero =>
    have outside : ¬ (start ≤ index ∧ index < stop ∧
        index / pageSize < start / pageSize + 0) := by
      unfold pageSize
      omega
    rw [if_neg outside]
    rfl
  | succ count ih =>
    have step : contents.clearPages start stop (count + 1) =
        (contents.clearPages start stop count).clearPage start stop
          (start / pageSize + count) := by
      simp only [clearPages, Nat.fold_succ]
    rw [step, byteAt_clearPage _ ordered, ih]
    by_cases last : index / pageSize = start / pageSize + count ∧ start ≤ index ∧ index < stop
    · have within : start ≤ index ∧ index < stop ∧
          index / pageSize < start / pageSize + (count + 1) := by omega
      rw [if_pos last, if_pos within]
    · rw [if_neg last]
      have same : (start ≤ index ∧ index < stop ∧ index / pageSize < start / pageSize + count) ↔
          start ≤ index ∧ index < stop ∧
            index / pageSize < start / pageSize + (count + 1) := by omega
      simp only [same]

def clear (contents : Contents) (offset count : Nat) : Contents :=
  let stop := offset + count
  contents.clearPages offset stop (stop / pageSize + 1 - offset / pageSize)

@[simp] theorem size_clear (contents : Contents) (offset count : Nat) :
    (contents.clear offset count).size = contents.size :=
  size_clearPages ..

theorem byteAt_clear (contents : Contents) (offset count index : Nat) :
    (contents.clear offset count).byteAt index =
      if offset ≤ index ∧ index < offset + count then 0 else contents.byteAt index := by
  unfold clear
  rw [byteAt_clearPages _ (Nat.le_add_right ..)]
  have same : (offset ≤ index ∧ index < offset + count ∧ index / pageSize <
      offset / pageSize + ((offset + count) / pageSize + 1 - offset / pageSize)) ↔
      offset ≤ index ∧ index < offset + count := by
    unfold pageSize
    omega
  simp only [same]

def read (contents : Contents) (offset : Nat) (size : AccessSize) : UInt32 :=
  Bytes.value contents.byteAt offset size

def write (contents : Contents) (offset : Nat) (value : UInt32) (size : AccessSize) : Contents :=
  contents.patch offset size.bytes (Bytes.wordByte value)

def load (contents : Contents) (offset : Nat) (source : ByteArray) : Contents :=
  contents.patch offset source.size (Bytes.byteAt source)

def toList (contents : Contents) : List UInt8 :=
  (List.range contents.size).map contents.byteAt

end Contents

end RiscBoard
