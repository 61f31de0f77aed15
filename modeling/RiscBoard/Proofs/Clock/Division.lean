import Mathlib.Algebra.Order.Floor.Div
import Mathlib.Data.Nat.Count
import Mathlib.Logic.Function.Iterate
import RiscBoard.Board.Run
import RiscBoard.Proofs.CommandLine.Quantities

/-!
The derived clock keeps to its ratio. After some ticks of the master, the derived clock has ticked as
often as the quotient of the accumulated rate by the master's rate says, and what is left over has
stayed in the accumulator (`count_firesAt`, `elapsed_after`). So no tick is lost or gained in the long
run, and ticks come as evenly as whole numbers allow (`divider_never_drifts`).
-/

namespace RiscBoard

namespace ClockDivider

def after (clock : ClockDivider) (count : Nat) : ClockDivider :=
  (fun clock => clock.tick.2)^[count] clock

def FiresAt (clock : ClockDivider) (index : Nat) : Prop := (clock.after index).tick.1 = true

instance (clock : ClockDivider) : DecidablePred clock.FiresAt :=
  fun index => inferInstanceAs (Decidable ((clock.after index).tick.1 = true))

structure Consecutive (clock : ClockDivider) (first second : Nat) : Prop where
  ordered : first < second
  fires : clock.FiresAt first
  firesAgain : clock.FiresAt second
  between : ∀ index, first < index → index < second → ¬ clock.FiresAt index

structure Sound (clock : ClockDivider) : Prop where
  narrow : clock.masterHz.toNat ≤ 2 ^ 63
  slower : clock.hz.toNat ≤ clock.masterHz.toNat
  below : clock.elapsed.toNat < clock.masterHz.toNat

def rate (masterHz hz : UInt64) : Nat := min hz.toNat masterHz.toNat

/-- A new divider with these rates is exact in the long run and even in between, and computes with exact
numbers. -/
structure NeverDrifts (masterHz hz : UInt64) : Prop where
  count : ∀ ticks, Nat.count (create masterHz hz).FiresAt ticks =
    ticks * rate masterHz hz / masterHz.toNat
  window : ∀ start, Nat.count (fun index => (create masterHz hz).FiresAt (start + index))
    masterHz.toNat = rate masterHz hz
  spacing : ∀ first second, (create masterHz hz).Consecutive first second →
    second - first = masterHz.toNat / rate masterHz hz ∨
      second - first = masterHz.toNat ⌈/⌉ rate masterHz hz
  below : ∀ ticks, ((create masterHz hz).after ticks).elapsed < masterHz
  fits : ∀ ticks, ((create masterHz hz).after ticks).elapsed.toNat +
    ((create masterHz hz).after ticks).hz.toNat < UInt64.size

section Step

variable {clock : ClockDivider}

theorem Sound.positive (sound : clock.Sound) : 0 < clock.masterHz.toNat :=
  Nat.lt_of_le_of_lt (Nat.zero_le _) sound.below

theorem Sound.sum_lt (sound : clock.Sound) :
    clock.elapsed.toNat + clock.hz.toNat < UInt64.size := by
  have size : UInt64.size = 2 ^ 63 + 2 ^ 63 := rfl
  have narrow := sound.narrow
  have slower := sound.slower
  have below := sound.below
  omega

theorem Sound.toNat_sum (sound : clock.Sound) :
    (clock.elapsed + clock.hz).toNat = clock.elapsed.toNat + clock.hz.toNat := by
  rw [UInt64.toNat_add]
  exact Nat.mod_eq_of_lt sound.sum_lt

theorem Sound.tick_of_reached (sound : clock.Sound)
    (reached : clock.masterHz.toNat ≤ clock.elapsed.toNat + clock.hz.toNat) :
    clock.tick = (true, { clock with elapsed := clock.elapsed + clock.hz - clock.masterHz }) := by
  have moves : 0 < clock.hz := by
    have below := sound.below
    rw [UInt64.lt_iff_toNat_lt, UInt64.toNat_zero]
    omega
  rw [← sound.toNat_sum, ← UInt64.le_iff_toNat_le] at reached
  rw [tick]
  exact if_pos (Bool.and_eq_true_iff.2 ⟨decide_eq_true reached, decide_eq_true moves⟩)

theorem Sound.tick_of_short (sound : clock.Sound)
    (short : clock.elapsed.toNat + clock.hz.toNat < clock.masterHz.toNat) :
    clock.tick = (false, { clock with elapsed := clock.elapsed + clock.hz }) := by
  rw [← sound.toNat_sum] at short
  have unreached : ¬ clock.elapsed + clock.hz ≥ clock.masterHz := by
    rw [ge_iff_le, UInt64.le_iff_toNat_le]
    exact Nat.not_le_of_lt short
  rw [tick]
  apply if_neg
  rw [Bool.and_eq_true, decide_eq_true_eq]
  exact fun both => unreached both.1

/-- One tick of the master. The derived clock ticks with it as often as the sum has the master's rate
in it, which is once or never, and the rest of the sum stays. -/
structure Stepped (clock : ClockDivider) : Prop where
  elapsed : clock.tick.2.elapsed.toNat =
    (clock.elapsed.toNat + clock.hz.toNat) % clock.masterHz.toNat
  fired : (if clock.tick.1 = true then 1 else 0) =
    (clock.elapsed.toNat + clock.hz.toNat) / clock.masterHz.toNat

theorem Sound.stepped (sound : clock.Sound) : clock.Stepped := by
  have below := sound.below
  have slower := sound.slower
  rcases Nat.lt_or_ge (clock.elapsed.toNat + clock.hz.toNat) clock.masterHz.toNat with short | reached
  · have ticked := sound.tick_of_short short
    constructor
    · rw [ticked, Nat.mod_eq_of_lt short]
      exact sound.toNat_sum
    · rw [ticked, Nat.div_eq_of_lt short]
      rfl
  · have ticked := sound.tick_of_reached reached
    have ordered : clock.masterHz ≤ clock.elapsed + clock.hz := by
      rwa [UInt64.le_iff_toNat_le, sound.toNat_sum]
    constructor
    · rw [ticked, Nat.mod_eq_sub_mod reached, Nat.mod_eq_of_lt (by omega)]
      exact (UInt64.toNat_sub_of_le _ _ ordered).trans (by rw [sound.toNat_sum])
    · rw [ticked, Nat.div_eq_of_lt_le (by omega : 1 * _ ≤ _) (by omega)]
      rfl

theorem masterHz_tick (clock : ClockDivider) : clock.tick.2.masterHz = clock.masterHz := by
  rw [tick]
  split
  next => rfl
  next => rfl

theorem hz_tick (clock : ClockDivider) : clock.tick.2.hz = clock.hz := by
  rw [tick]
  split
  next => rfl
  next => rfl

theorem Sound.tick (sound : clock.Sound) : clock.tick.2.Sound := by
  refine ⟨?_, ?_, ?_⟩
  · rw [masterHz_tick]
    exact sound.narrow
  · rw [masterHz_tick, hz_tick]
    exact sound.slower
  · rw [masterHz_tick, sound.stepped.elapsed]
    exact Nat.mod_lt _ sound.positive

end Step

section Run

variable {clock : ClockDivider}

theorem after_succ (clock : ClockDivider) (count : Nat) :
    clock.after (count + 1) = (clock.after count).tick.2 :=
  Function.iterate_succ_apply' ..

theorem masterHz_after (clock : ClockDivider) (count : Nat) :
    (clock.after count).masterHz = clock.masterHz := by
  induction count with
  | zero => rfl
  | succ count ih => rw [after_succ, masterHz_tick, ih]

theorem hz_after (clock : ClockDivider) (count : Nat) : (clock.after count).hz = clock.hz := by
  induction count with
  | zero => rfl
  | succ count ih => rw [after_succ, hz_tick, ih]

theorem Sound.after (sound : clock.Sound) (count : Nat) : (clock.after count).Sound := by
  induction count with
  | zero => exact sound
  | succ count ih =>
    rw [after_succ]
    exact ih.tick

/-- The accumulator holds what is left of all that has been added to it. -/
theorem Sound.elapsed_after (sound : clock.Sound) (count : Nat) :
    (clock.after count).elapsed.toNat =
      (clock.elapsed.toNat + count * clock.hz.toNat) % clock.masterHz.toNat := by
  induction count with
  | zero =>
    rw [Nat.zero_mul, Nat.add_zero, Nat.mod_eq_of_lt sound.below]
    rfl
  | succ count ih =>
    rw [after_succ, (sound.after count).stepped.elapsed, masterHz_after, hz_after, ih,
      Nat.mod_add_mod, Nat.add_assoc, ← Nat.succ_mul]

/-- What is left of a sum joins what is added next. -/
theorem div_add_div_mod_add {master : Nat} (positive : 0 < master) (sum rate : Nat) :
    sum / master + (sum % master + rate) / master = (sum + rate) / master :=
  calc sum / master + (sum % master + rate) / master
      = (sum % master + rate + master * (sum / master)) / master := by
        rw [Nat.add_mul_div_left _ _ positive, Nat.add_comm]
    _ = (sum + rate) / master := by rw [Nat.add_right_comm, Nat.mod_add_div]

/-- The derived clock has ticked as often as the master's rate goes into all that has been added. -/
theorem Sound.count_firesAt (sound : clock.Sound) (count : Nat) :
    Nat.count clock.FiresAt count =
      (clock.elapsed.toNat + count * clock.hz.toNat) / clock.masterHz.toNat := by
  induction count with
  | zero =>
    rw [Nat.count_zero, Nat.zero_mul, Nat.add_zero, Nat.div_eq_of_lt sound.below]
  | succ count ih =>
    have fired := (sound.after count).stepped.fired
    rw [masterHz_after, hz_after, sound.elapsed_after] at fired
    rw [Nat.count_succ, ih]
    change _ + (if (clock.after count).tick.1 = true then 1 else 0) = _
    rw [fired, div_add_div_mod_add sound.positive, Nat.add_assoc, ← Nat.succ_mul]

theorem Consecutive.count_eq {first second : Nat} (consecutive : clock.Consecutive first second) :
    Nat.count clock.FiresAt second = Nat.count clock.FiresAt (first + 1) := by
  obtain ⟨gap, rfl⟩ := Nat.exists_eq_add_of_le consecutive.ordered
  have none : Nat.count (fun index => clock.FiresAt (first + 1 + index)) gap = 0 := by
    rw [Nat.count_iff_forall_not]
    intro index inside
    exact consecutive.between _ (by omega) (by omega)
  rw [Nat.succ_eq_add_one, Nat.count_add, none, Nat.add_zero]

/-- A whole number next to a ratio is the ratio rounded down or up. -/
theorem eq_floor_or_ceil {master rate distance : Nat} (above : master < distance * rate + rate)
    (below : distance * rate < master + rate) :
    distance = master / rate ∨ distance = master ⌈/⌉ rate := by
  have positive : 0 < rate := by
    rcases Nat.eq_zero_or_pos rate with rfl | positive
    · exact absurd above (by simp)
    · exact positive
  have floor : master / rate < distance + 1 := by
    rw [Nat.div_lt_iff_lt_mul positive, Nat.succ_mul]
    exact above
  have ceil : distance ≤ (master + rate - 1) / rate := by
    rw [Nat.le_div_iff_mul_le positive]
    omega
  have near : (master + rate - 1) / rate ≤ master / rate + 1 := by
    rw [← Nat.add_div_right _ positive]
    exact Nat.div_le_div_right (Nat.sub_le ..)
  rw [Nat.ceilDiv_eq_add_pred_div]
  omega

theorem Sound.spacing (sound : clock.Sound) {first second : Nat}
    (consecutive : clock.Consecutive first second) :
    second - first = clock.masterHz.toNat / clock.hz.toNat ∨
      second - first = clock.masterHz.toNat ⌈/⌉ clock.hz.toNat := by
  have fires := Nat.count_succ_eq_succ_count_iff.2 consecutive.fires
  have firesAgain := Nat.count_succ_eq_succ_count_iff.2 consecutive.firesAgain
  have between := consecutive.count_eq
  obtain ⟨distance, rfl⟩ := Nat.exists_eq_add_of_le (Nat.le_of_lt consecutive.ordered)
  rw [Nat.add_sub_cancel_left]
  generalize ticks : Nat.count clock.FiresAt first = quotient at fires
  rw [fires] at between
  rw [between] at firesAgain
  rw [sound.count_firesAt] at ticks fires between firesAgain
  -- the accumulated rate passes the next multiple of the master's rate at each of the two ticks
  have before := Nat.lt_mul_of_div_lt (Nat.lt_succ_of_le ticks.le) sound.positive
  have passed := (Nat.le_div_iff_mul_le sound.positive).1 fires.ge
  have beforeAgain := Nat.lt_mul_of_div_lt (Nat.lt_succ_of_le between.le) sound.positive
  have passedAgain := (Nat.le_div_iff_mul_le sound.positive).1 firesAgain.ge
  simp only [Nat.succ_eq_add_one, Nat.add_mul, Nat.one_mul]
    at before passed beforeAgain passedAgain
  apply eq_floor_or_ceil
  · omega
  · omega

theorem Sound.window (sound : clock.Sound) (start : Nat) :
    Nat.count (fun index => clock.FiresAt (start + index)) clock.masterHz.toNat =
      clock.hz.toNat := by
  have total := sound.count_firesAt (start + clock.masterHz.toNat)
  rw [Nat.count_add, sound.count_firesAt, Nat.add_mul, ← Nat.add_assoc,
    Nat.add_mul_div_left _ _ sound.positive] at total
  exact Nat.add_left_cancel total

end Run

section Creation

variable {masterHz : UInt64}

theorem toNat_hz_create (masterHz hz : UInt64) :
    (create masterHz hz).hz.toNat = rate masterHz hz := by
  have isMin : (create masterHz hz).hz = if hz ≤ masterHz then hz else masterHz := rfl
  rw [isMin, rate]
  split
  next ordered => rw [Nat.min_eq_left (UInt64.le_iff_toNat_le.1 ordered)]
  next unordered =>
    have above := mt UInt64.le_iff_toNat_le.2 unordered
    rw [Nat.min_eq_right (Nat.le_of_not_le above)]

theorem sound_create (positive : 1 ≤ masterHz) (narrow : masterHz.toNat ≤ 2 ^ 63) (hz : UInt64) :
    (create masterHz hz).Sound := by
  refine ⟨narrow, ?_, UInt64.le_iff_toNat_le.1 positive⟩
  rw [toNat_hz_create]
  exact Nat.min_le_right ..

theorem neverDrifts (positive : 1 ≤ masterHz) (narrow : masterHz.toNat ≤ 2 ^ 63) (hz : UInt64) :
    NeverDrifts masterHz hz := by
  have sound := sound_create positive narrow hz
  have derived := toNat_hz_create masterHz hz
  refine ⟨?_, ?_, ?_, ?_, ?_⟩
  · intro ticks
    rw [sound.count_firesAt, derived]
    exact congrArg (· / masterHz.toNat) (Nat.zero_add _)
  · intro start
    rw [← derived]
    exact sound.window start
  · intro first second consecutive
    rw [← derived]
    exact sound.spacing consecutive
  · intro ticks
    have below := (sound.after ticks).below
    rw [masterHz_after] at below
    exact UInt64.lt_iff_toNat_lt.2 below
  · intro ticks
    exact (sound.after ticks).sum_lt

theorem le_of_parseFrequency {text : String} {speed : Nat}
    (accepted : Quantity.parseFrequency text = .ok speed) : speed ≤ 2 ^ 63 := by
  have stands := (Quantity.parseScaled_eq_ok_iff.1 accepted).1
  exact Nat.le_trans (stands.le (by decide)) (by decide)

end Creation

/-- A divider never drifts, whatever its rates, if that of the master is from 1 to 2^63. So is the speed
of every run that is slowed down. -/
theorem divider_never_drifts :
    (∀ masterHz hz : UInt64, 1 ≤ masterHz → masterHz.toNat ≤ 2 ^ 63 → NeverDrifts masterHz hz) ∧
    ∀ text speed throttle, Quantity.parseFrequency text = .ok speed →
      Throttle.ofSpeed? (UInt64.ofNat speed) = some throttle →
      throttle.divider = create (UInt64.ofNat speed) Throttle.checkHz ∧
        (UInt64.ofNat speed).toNat = speed ∧ 1 ≤ speed ∧ speed ≤ 2 ^ 63 := by
  constructor
  · intro masterHz hz positive narrow
    exact neverDrifts positive narrow hz
  · intro text speed throttle accepted slowed
    have bound := le_of_parseFrequency accepted
    have same : (UInt64.ofNat speed).toNat = speed :=
      UInt64.toNat_ofNat_of_lt' (Nat.lt_of_le_of_lt bound (by decide))
    rw [Throttle.ofSpeed?] at slowed
    split at slowed
    next => cases slowed
    next moves =>
      cases slowed
      refine ⟨rfl, same, ?_, bound⟩
      rw [Nat.one_le_iff_ne_zero]
      rintro rfl
      exact moves rfl

/-- Three ticks for every ten, and as many as the master has of a clock that is faster. -/
theorem tenths_never_drift :
    (create 10 3).Consecutive 9 13 ∧ Nat.count (create 10 3).FiresAt 1000001 = 300000 ∧
      Nat.count (fun index => (create 10 3).FiresAt (8 + index)) 10 = 3 ∧
      Nat.count (create 0x8000000000000000 0xffffffffffffffff).FiresAt 1000001 = 1000001 ∧
      Quantity.parseFrequency "1500k" = .ok 1500000 ∧
      Throttle.ofSpeed? (UInt64.ofNat 1500000) = some ⟨create 1500000 100, 0⟩ ∧
      (UInt64.ofNat 1500000).toNat = 1500000 := by
  have between : ∀ index < 13, 9 < index → ¬ (create 10 3).FiresAt index := by decide
  have consecutive : (create 10 3).Consecutive 9 13 :=
    ⟨by decide, by decide, by decide, fun index after before => between index before after⟩
  have accepted : Quantity.parseFrequency "1500k" = .ok 1500000 := by decide +kernel
  have slowed : Throttle.ofSpeed? (UInt64.ofNat 1500000) = some ⟨create 1500000 100, 0⟩ := rfl
  obtain ⟨dividers, throttles⟩ := divider_never_drifts
  have tenths := dividers 10 3 (by decide) (by decide +kernel)
  have fastest :=
    dividers 0x8000000000000000 0xffffffffffffffff (by decide +kernel) (by decide +kernel)
  obtain ⟨-, same, -, -⟩ := throttles "1500k" 1500000 _ accepted slowed
  refine ⟨consecutive, tenths.count _, tenths.window 8, ?_, accepted, slowed, same⟩
  rw [fastest.count]
  decide +kernel

end ClockDivider

end RiscBoard
